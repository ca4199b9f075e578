/-
# NcsExp.Gateway.Reconnect -- the work that keeps the cloud link up

`cloud_connect` (`main.c`) runs on the system work queue as `connect_work`, and `main`
calls it once itself.  Each call tests `cloud_connected`, connects, and schedules the work
again; `cloud_event_handler` sets the flag and cancels the work, or clears the flag and
schedules it.  The statements of both calls and the events come in any order.

* `keeps_retrying`: while the link is down there is always a call to come, in the runs in
  which the link is not lost while a cancellation is still going on.
* `lost_while_canceling`: such a loss leads, by the steps of the work queue alone, to a
  state in which no call of `cloud_connect` ever comes.
* `reconnects_at_once`: the loss of a link puts the work in the queue itself, if the link
  came up after the call of `main`.
* `settles`: while the link is up, every order of steps comes to rest, and
  `nrf_cloud_connect` is called only by the calls that were past their test.
-/
import NcsExp.Gateway.Model
import NcsExp.Theory.DelayableWork
import NcsExp.Theory.Progress

namespace NcsExp.Gateway

open NcsExp.Theory

set_option autoImplicit false

/-- `RETRY_CONNECT_WAIT`. -/
def retryConnectWait : Delay := .after 90000

/-- The next statement of a call of `cloud_connect`. -/
inductive ConnectPc
  | check
  | connect
  | schedule
  | returned
  deriving DecidableEq

/-- `handler` is the call that the work queue makes and `direct` the one of `main`;
`attempts` counts the calls of `nrf_cloud_connect`. -/
structure Link where
  gateway : State
  cloudConnected : Bool
  connectWork : DelayableWork
  handler : Option ConnectPc
  direct : Option ConnectPc
  attempts : Nat

namespace Link

/-! ## The code -/

/-- A statement of `cloud_connect`, lines 408-439; `err` is what `nrf_cloud_connect` returns. -/
def cloudConnect (l : Link) (pc : ConnectPc) (err : Int) : Link × ConnectPc :=
  match pc with
  | .check => if l.cloudConnected then (l, .returned) else (l, .connect)
  | .connect =>
      let l := { l with attempts := l.attempts + 1 }
      if err ≠ 0 then ({ l with gateway := l.gateway.nrfCloudErrorHandler }, .schedule)
      else (l, .schedule)
  | .schedule => ({ l with connectWork := l.connectWork.schedule retryConnectWait }, .returned)
  | .returned => (l, .returned)

/-- `cloud_event_handler`, lines 319-393. -/
def cloudEventHandler (l : Link) (evt : CloudEvt) : Link :=
  let l := { l with gateway := l.gateway.cloudEventHandler evt }
  match evt with
  | .transportConnected => { l with cloudConnected := true, connectWork := l.connectWork.cancel }
  | .transportDisconnected =>
      { l with cloudConnected := false, connectWork := l.connectWork.schedule .noWait }
  | _ => l

/-- `gateway` is anything else that the program does; its main loop begins when the call of
`cloud_connect` is over. -/
inductive Act
  | gateway (a : Gateway.Act)
  | cloud (evt : CloudEvt)
  | callDirect
  | direct (err : Int)
  | expire
  | begin
  | handler (err : Int)
  | finish

/-- What `gateway` may stand for. -/
def others (l : Link) : Gateway.Act → Bool
  | .cloud _ => false
  | .main _ => l.direct = some .returned
  | _ => true

def act (l : Link) : Act → Option Link
  | .gateway a =>
      if l.others a then (l.gateway.act a).map fun g => { l with gateway := g } else none
  | .cloud evt => some (l.cloudEventHandler evt)
  | .callDirect => if l.direct = none then some { l with direct := some .check } else none
  | .direct err =>
      match l.direct with
      | none => none
      | some .returned => none
      | some pc =>
          let res := l.cloudConnect pc err
          some { res.1 with direct := some res.2 }
  | .expire => l.connectWork.expire.map fun w => { l with connectWork := w }
  | .begin =>
      l.connectWork.begin.map fun w => { l with connectWork := w, handler := some .check }
  | .handler err =>
      match l.handler with
      | none => none
      | some .returned => none
      | some pc =>
          let res := l.cloudConnect pc err
          some { res.1 with handler := some res.2 }
  | .finish =>
      if l.handler = some .returned then
        some { l with connectWork := l.connectWork.finish, handler := none }
      else none

def step (l : Link) (a : Act) : Option Link := if l.gateway.halted then none else l.act a

/-- `work_init` has run, and `cloud_init`. -/
structure Init (l : Link) : Prop where
  gateway : l.gateway.Init
  down : l.cloudConnected = false
  work : l.connectWork = .idle
  handler : l.handler = none
  direct : l.direct = none
  attempts : l.attempts = 0

/-- One such state. -/
def start : Link := ⟨.start, false, .idle, none, none, 0⟩

theorem start_init : start.Init := ⟨State.start_init, rfl, rfl, rfl, rfl, rfl⟩

/-! ## One statement of `cloud_connect` -/

section

variable (l : Link) (pc : ConnectPc) (err : Int)

@[simp] theorem cloudConnect_cloudConnected :
    (l.cloudConnect pc err).1.cloudConnected = l.cloudConnected := by
  cases pc <;> simp only [cloudConnect] <;> split <;> rfl

@[simp] theorem cloudConnect_handler : (l.cloudConnect pc err).1.handler = l.handler := by
  cases pc <;> simp only [cloudConnect] <;> split <;> rfl

@[simp] theorem cloudConnect_direct : (l.cloudConnect pc err).1.direct = l.direct := by
  cases pc <;> simp only [cloudConnect] <;> split <;> rfl

/-- The work item is left alone, or scheduled by the last statement. -/
theorem cloudConnect_connectWork :
    (l.cloudConnect pc err).1.connectWork =
      if pc = .schedule then l.connectWork.schedule retryConnectWait else l.connectWork := by
  cases pc <;> simp only [cloudConnect] <;> split <;> first | rfl | contradiction

@[simp] theorem running_cloudConnect :
    (l.cloudConnect pc err).1.connectWork.running = l.connectWork.running := by
  rw [cloudConnect_connectWork]
  split
  · exact DelayableWork.running_schedule _
  · rfl

@[simp] theorem canceling_cloudConnect :
    (l.cloudConnect pc err).1.connectWork.canceling = l.connectWork.canceling := by
  rw [cloudConnect_connectWork]
  split
  · exact DelayableWork.canceling_schedule _
  · rfl

variable {l pc}

/-- What is pending stays so. -/
theorem pending_cloudConnect (pending : l.connectWork.pending = true) :
    (l.cloudConnect pc err).1.connectWork.pending = true := by
  rw [cloudConnect_connectWork, DelayableWork.schedule_of_pending _ pending, ite_self]
  exact pending

/-- A call that finds the link down returns only with the work scheduled. -/
theorem cloudConnect_retries (down : l.cloudConnected = false)
    (free : l.connectWork.canceling = false) (working : pc ≠ .returned) :
    (l.cloudConnect pc err).2 ≠ .returned ∨
      (l.cloudConnect pc err).1.connectWork.pending = true := by
  cases pc with
  | check =>
      left
      simp [cloudConnect, down]
  | connect =>
      left
      simp only [cloudConnect]
      split <;> simp
  | schedule =>
      right
      exact DelayableWork.pending_schedule retryConnectWait free
  | returned => exact absurd rfl working

end

/-! ## The link is never given up -/

/-- A call that is not over. -/
def Working (pc : Option ConnectPc) : Prop := ∃ at_, pc = some at_ ∧ at_ ≠ .returned

/-- A call of `cloud_connect` is to come or under way. -/
def Retrying (l : Link) : Prop :=
  l.connectWork.pending = true ∨ Working l.handler ∨ Working l.direct

/-- The link is not lost while a cancellation of the work is going on. -/
def inTurn (l : Link) : Act → Bool
  | .cloud .transportDisconnected => !l.connectWork.canceling
  | _ => true

/-- The work queue runs the handler exactly while the item says so. -/
def Runs (l : Link) : Prop := l.connectWork.running = l.handler.isSome

structure Watched (l : Link) : Prop where
  runs : l.Runs
  canceling : l.connectWork.canceling = true → l.cloudConnected = true
  retrying : l.cloudConnected = false → l.direct ≠ none → l.Retrying

theorem working_iff (pc : ConnectPc) : Working (some pc) ↔ pc ≠ .returned := by
  simp [Working]

variable {l t : Link} {a : Act} {err : Int}

/-- A statement of the call of the work queue. -/
theorem handler_eq_some (taken : l.act (.handler err) = some t) :
    ∃ pc, l.handler = some pc ∧ pc ≠ .returned ∧
      t = { (l.cloudConnect pc err).1 with handler := some (l.cloudConnect pc err).2 } := by
  simp only [act] at taken
  split at taken
  · cases taken
  · cases taken
  · rename_i pc working found
    exact ⟨pc, found, working, (Option.some.inj taken).symm⟩

/-- A statement of the call of `main`. -/
theorem direct_eq_some (taken : l.act (.direct err) = some t) :
    ∃ pc, l.direct = some pc ∧ pc ≠ .returned ∧
      t = { (l.cloudConnect pc err).1 with direct := some (l.cloudConnect pc err).2 } := by
  simp only [act] at taken
  split at taken
  · cases taken
  · cases taken
  · rename_i pc working found
    exact ⟨pc, found, working, (Option.some.inj taken).symm⟩

/-- Nothing else touches the work or the calls. -/
theorem gateway_eq_some {g : Gateway.Act} (taken : l.act (.gateway g) = some t) :
    ∃ s, l.gateway.act g = some s ∧ t = { l with gateway := s } := by
  simp only [act, Option.ite_none_right_eq_some, Option.map_eq_some_iff] at taken
  obtain ⟨-, s, moved, rfl⟩ := taken
  exact ⟨s, moved, rfl⟩

/-- The events that are not about the transport leave them alone. -/
theorem cloudEventHandler_cases (l : Link) (evt : CloudEvt) :
    evt = .transportConnected ∧
        l.cloudEventHandler evt = { l with
          gateway := l.gateway.cloudEventHandler evt
          cloudConnected := true
          connectWork := l.connectWork.cancel } ∨
      evt = .transportDisconnected ∧
        l.cloudEventHandler evt = { l with
          gateway := l.gateway.cloudEventHandler evt
          cloudConnected := false
          connectWork := l.connectWork.schedule .noWait } ∨
      l.cloudEventHandler evt = { l with gateway := l.gateway.cloudEventHandler evt } := by
  cases evt with
  | transportConnected => exact .inl ⟨rfl, rfl⟩
  | transportDisconnected => exact .inr (.inl ⟨rfl, rfl⟩)
  | _ => exact .inr (.inr rfl)

theorem step_eq_act (running : l.gateway.halted = false) (a : Act) : l.step a = l.act a := by
  rw [step, if_neg (by simp [running])]

theorem act_of_step (taken : l.step a = some t) : l.act a = some t := by
  rw [step] at taken
  split at taken
  · cases taken
  · exact taken

/-- The item and the work queue agree. -/
theorem Runs.act (inv : l.Runs) (taken : l.act a = some t) : t.Runs := by
  unfold Runs at inv ⊢
  cases a with
  | gateway g =>
      obtain ⟨s, -, rfl⟩ := gateway_eq_some taken
      exact inv
  | cloud evt =>
      cases taken
      obtain ⟨-, same⟩ | ⟨-, same⟩ | same := l.cloudEventHandler_cases evt
      all_goals rw [same]
      · exact inv
      · exact (DelayableWork.running_schedule _).trans inv
      · exact inv
  | callDirect =>
      simp only [Link.act, Option.ite_none_right_eq_some, Option.some.injEq] at taken
      obtain ⟨-, rfl⟩ := taken
      exact inv
  | direct err =>
      obtain ⟨pc, -, -, rfl⟩ := direct_eq_some taken
      simpa using inv
  | expire =>
      simp only [Link.act, Option.map_eq_some_iff] at taken
      obtain ⟨w, expired, rfl⟩ := taken
      obtain ⟨-, -, -, running, -⟩ := DelayableWork.expire_eq_some.mp expired
      exact running.trans inv
  | begin =>
      simp only [Link.act, Option.map_eq_some_iff] at taken
      obtain ⟨w, begun, rfl⟩ := taken
      obtain ⟨-, -, -, -, running, -⟩ := DelayableWork.begin_eq_some.mp begun
      exact running
  | handler err =>
      obtain ⟨pc, found, -, rfl⟩ := handler_eq_some taken
      simpa [found] using inv
  | finish =>
      simp only [Link.act, Option.ite_none_right_eq_some, Option.some.injEq] at taken
      obtain ⟨-, rfl⟩ := taken
      rfl

namespace Watched

theorem of_init (init : l.Init) : Watched l where
  runs := by rw [Runs, init.work, init.handler]; rfl
  canceling := by
    rw [init.work]
    intro canceling
    cases canceling
  retrying _ called := absurd init.direct called

/-- While the link is down nothing is being cancelled. -/
theorem free (inv : Watched l) (down : l.cloudConnected = false) :
    l.connectWork.canceling = false := by
  apply eq_false_of_ne_true
  intro canceling
  rw [inv.canceling canceling] at down
  cases down

/-- An event of the cloud library. -/
theorem cloud (inv : Watched l) (evt : CloudEvt) (met : l.inTurn (.cloud evt) = true) :
    Watched (l.cloudEventHandler evt) := by
  have runs : Runs (l.cloudEventHandler evt) := inv.runs.act (a := .cloud evt) rfl
  obtain ⟨-, same⟩ | ⟨rfl, same⟩ | same := l.cloudEventHandler_cases evt
  all_goals
    rw [same] at runs ⊢
    refine ⟨runs, ?_, ?_⟩
  · intro _
    rfl
  · intro down
    cases down
  · intro canceling
    have free : l.connectWork.canceling = false := by simpa [inTurn] using met
    rw [DelayableWork.canceling_schedule, free] at canceling
    cases canceling
  · intro _ _
    exact .inl (DelayableWork.pending_schedule _ (by simpa [inTurn] using met))
  · exact inv.canceling
  · exact inv.retrying

/-- A statement of the call of `main`. -/
theorem direct (inv : Watched l) (runs : t.Runs) (taken : l.act (.direct err) = some t) :
    Watched t := by
  obtain ⟨pc, found, working, rfl⟩ := direct_eq_some taken
  refine ⟨runs, by simpa using inv.canceling, fun down _ => ?_⟩
  have down : l.cloudConnected = false := by simpa using down
  rcases cloudConnect_retries err down (inv.free down) working with goes | pending
  · exact .inr (.inr ((working_iff _).mpr goes))
  · exact .inl pending

/-- A statement of the call of the work queue. -/
theorem handler (inv : Watched l) (runs : t.Runs) (taken : l.act (.handler err) = some t) :
    Watched t := by
  obtain ⟨pc, found, working, rfl⟩ := handler_eq_some taken
  refine ⟨runs, by simpa using inv.canceling, fun down _ => ?_⟩
  have down : l.cloudConnected = false := by simpa using down
  rcases cloudConnect_retries err down (inv.free down) working with goes | pending
  · exact .inr (.inl ((working_iff _).mpr goes))
  · exact .inl pending

theorem act (inv : Watched l) (met : l.inTurn a = true) (taken : l.act a = some t) :
    Watched t := by
  have runs := inv.runs.act taken
  cases a with
  | gateway g =>
      obtain ⟨s, -, rfl⟩ := gateway_eq_some taken
      exact ⟨runs, inv.canceling, inv.retrying⟩
  | cloud evt =>
      cases taken
      exact inv.cloud evt met
  | callDirect =>
      simp only [Link.act, Option.ite_none_right_eq_some, Option.some.injEq] at taken
      obtain ⟨-, rfl⟩ := taken
      exact ⟨runs, inv.canceling, fun _ _ => .inr (.inr ⟨.check, rfl, by decide⟩)⟩
  | direct err => exact inv.direct runs taken
  | expire =>
      simp only [Link.act, Option.map_eq_some_iff] at taken
      obtain ⟨w, expired, rfl⟩ := taken
      obtain ⟨-, -, queued, -, canceling⟩ := DelayableWork.expire_eq_some.mp expired
      refine ⟨runs, fun marked => inv.canceling (canceling.symm.trans marked), fun _ _ => .inl ?_⟩
      exact Bool.or_eq_true_iff.mpr (.inr queued)
  | begin =>
      simp only [Link.act, Option.map_eq_some_iff] at taken
      obtain ⟨w, begun, rfl⟩ := taken
      obtain ⟨-, -, -, -, -, canceling⟩ := DelayableWork.begin_eq_some.mp begun
      refine ⟨runs, fun marked => inv.canceling (canceling.symm.trans marked), fun _ _ => ?_⟩
      exact .inr (.inl ⟨.check, rfl, by decide⟩)
  | handler err => exact inv.handler runs taken
  | finish =>
      simp only [Link.act, Option.ite_none_right_eq_some, Option.some.injEq] at taken
      obtain ⟨ended, rfl⟩ := taken
      refine ⟨runs, fun marked => (by cases marked), fun down called => ?_⟩
      obtain pending | ⟨pc, found, working⟩ | direct := inv.retrying down called
      · exact .inl pending
      · exact absurd (Option.some.inj (found.symm.trans ended)) working
      · exact .inr (.inr direct)

end Watched

theorem watched_of_reachable (run : Reachable step Init inTurn l) : Watched l :=
  run.invariant (fun _ init => .of_init init) fun _ _ _ inv met taken =>
    inv.act met (act_of_step taken)

/-! ## What the calls lead to -/

/-- The steps of the work queue, of its timer and of the call of `main`, with nothing refused. -/
def Own : Act → Prop
  | .direct err => err = 0
  | .expire => True
  | .begin => True
  | .handler err => err = 0
  | .finish => True
  | _ => False

/-- What is left to do, by the weight of each statement; a call begins with weight 2. -/
def rank (weight : ConnectPc → Nat) (l : Link) : Nat :=
  l.connectWork.toRun 2 + (l.handler.map weight).getD 0 + (l.direct.map weight).getD 0

/-- The steps until the next call of `nrf_cloud_connect`. -/
def untilConnect : ConnectPc → Nat
  | .check => 2
  | .connect => 1
  | .schedule => 6
  | .returned => 1

/-- With the link down, a statement of `cloud_connect` is that call or gets nearer to it. -/
theorem cloudConnect_nearer {pc : ConnectPc} (down : l.cloudConnected = false)
    (working : pc ≠ .returned) :
    (l.cloudConnect pc 0).1.gateway = l.gateway ∧
      ((l.cloudConnect pc 0).1.attempts = l.attempts + 1 ∨
        (l.cloudConnect pc 0).1.attempts = l.attempts ∧
          (l.cloudConnect pc 0).1.connectWork.toRun 2 + untilConnect (l.cloudConnect pc 0).2 <
            l.connectWork.toRun 2 + untilConnect pc) := by
  cases pc with
  | check => simp [cloudConnect, down, untilConnect]
  | connect => simp [cloudConnect]
  | schedule =>
      have bound := l.connectWork.toRun_schedule_le 2 retryConnectWait
      refine ⟨rfl, .inr ⟨rfl, ?_⟩⟩
      simp only [cloudConnect, untilConnect]
      omega
  | returned => exact absurd rfl working

/-- The link is down, and `nrf_cloud_connect` was called `n` times. -/
structure Waiting (n : Nat) (l : Link) : Prop where
  watched : l.Watched
  down : l.cloudConnected = false
  called : l.direct ≠ none
  running : l.gateway.halted = false
  attempts : l.attempts = n

namespace Waiting

variable {n : Nat}

/-- The call of `main` goes on. -/
theorem direct (wait : Waiting n l) {pc : ConnectPc} (found : l.direct = some pc)
    (working : pc ≠ .returned) :
    ∃ t, l.step (.direct 0) = some t ∧
      (t.attempts = n + 1 ∨ Waiting n t ∧ t.rank untilConnect < l.rank untilConnect) := by
  have taken : l.act (.direct 0) =
      some { (l.cloudConnect pc 0).1 with direct := some (l.cloudConnect pc 0).2 } := by
    simp only [Link.act, found]
  have watched := wait.watched.act (a := .direct 0) rfl taken
  obtain ⟨gateway, called | ⟨same, nearer⟩⟩ := cloudConnect_nearer wait.down working
  all_goals refine ⟨_, (step_eq_act wait.running _).trans taken, ?_⟩
  · exact .inl (called.trans (by rw [wait.attempts]))
  · refine .inr ⟨⟨watched, by simpa using wait.down, nofun, ?_, same.trans wait.attempts⟩, ?_⟩
    · simpa [gateway] using wait.running
    · simp only [rank, cloudConnect_handler, found, Option.map_some, Option.getD_some]
      omega

/-- The call of the work queue goes on. -/
theorem handler (wait : Waiting n l) {pc : ConnectPc} (found : l.handler = some pc)
    (working : pc ≠ .returned) :
    ∃ t, l.step (.handler 0) = some t ∧
      (t.attempts = n + 1 ∨ Waiting n t ∧ t.rank untilConnect < l.rank untilConnect) := by
  have taken : l.act (.handler 0) =
      some { (l.cloudConnect pc 0).1 with handler := some (l.cloudConnect pc 0).2 } := by
    simp only [Link.act, found]
  have watched := wait.watched.act (a := .handler 0) rfl taken
  obtain ⟨gateway, called | ⟨same, nearer⟩⟩ := cloudConnect_nearer wait.down working
  all_goals refine ⟨_, (step_eq_act wait.running _).trans taken, ?_⟩
  · exact .inl (called.trans (by rw [wait.attempts]))
  · refine .inr ⟨⟨watched, by simpa using wait.down, ?_, ?_, same.trans wait.attempts⟩, ?_⟩
    · simpa using wait.called
    · simpa [gateway] using wait.running
    · simp only [rank, cloudConnect_direct, found, Option.map_some, Option.getD_some]
      omega

/-- The call of the work queue is over. -/
theorem finish (wait : Waiting n l) (ended : l.handler = some .returned) :
    ∃ t, l.step .finish = some t ∧ Waiting n t ∧ t.rank untilConnect < l.rank untilConnect := by
  have taken : l.act .finish =
      some { l with connectWork := l.connectWork.finish, handler := none } := by
    simp only [Link.act, ended, if_pos]
  have watched := wait.watched.act (a := .finish) rfl taken
  refine ⟨_, (step_eq_act wait.running _).trans taken,
    ⟨watched, wait.down, wait.called, wait.running, wait.attempts⟩, ?_⟩
  simp only [rank, ended, DelayableWork.toRun_finish, Option.map_some, Option.getD_some,
    Option.map_none, Option.getD_none, untilConnect]
  omega

/-- The queue turns to the work. -/
theorem pending (wait : Waiting n l) (idle : l.handler = none)
    (pending : l.connectWork.pending = true) :
    ∃ a t, Own a ∧ l.step a = some t ∧ Waiting n t ∧
      t.rank untilConnect < l.rank untilConnect := by
  have free : l.connectWork.running = false := by rw [wait.watched.runs, idle]; rfl
  cases queued : l.connectWork.queued with
  | true =>
      obtain ⟨w, begun⟩ := DelayableWork.exists_begin queued free
      have taken : l.act .begin = some { l with connectWork := w, handler := some .check } := by
        simp only [Link.act, begun, Option.map_some]
      have watched := wait.watched.act (a := .begin) rfl taken
      refine ⟨.begin, _, trivial, (step_eq_act wait.running _).trans taken,
        ⟨watched, wait.down, wait.called, wait.running, wait.attempts⟩, ?_⟩
      have nearer := DelayableWork.toRun_begin_lt (n := 2) begun
      simp only [rank, idle, Option.map_some, Option.getD_some, Option.map_none, Option.getD_none,
        untilConnect]
      omega
  | false =>
      have delayed : l.connectWork.delayed = true := by
        simpa [DelayableWork.pending, queued] using pending
      obtain ⟨w, expired⟩ := DelayableWork.exists_expire delayed
      have taken : l.act .expire = some { l with connectWork := w } := by
        simp only [Link.act, expired, Option.map_some]
      have watched := wait.watched.act (a := .expire) rfl taken
      refine ⟨.expire, _, trivial, (step_eq_act wait.running _).trans taken,
        ⟨watched, wait.down, wait.called, wait.running, wait.attempts⟩, ?_⟩
      have nearer := DelayableWork.toRun_expire_lt (n := 2) expired
      simp only [rank]
      omega

/-- One of them is always possible. -/
theorem moves (wait : Waiting n l) :
    ∃ a t, Own a ∧ l.step a = some t ∧
      (t.attempts = n + 1 ∨ Waiting n t ∧ t.rank untilConnect < l.rank untilConnect) := by
  cases found : l.handler with
  | some pc =>
      by_cases ended : pc = .returned
      · subst ended
        obtain ⟨t, taken, nearer⟩ := wait.finish found
        exact ⟨.finish, t, trivial, taken, .inr nearer⟩
      · obtain ⟨t, taken, nearer⟩ := wait.handler found ended
        exact ⟨.handler 0, t, rfl, taken, nearer⟩
  | none =>
      obtain pending | ⟨pc, some_, -⟩ | ⟨pc, direct, working⟩ :=
        wait.watched.retrying wait.down wait.called
      · obtain ⟨a, t, own, taken, nearer⟩ := wait.pending found pending
        exact ⟨a, t, own, taken, .inr nearer⟩
      · rw [found] at some_
        cases some_
      · obtain ⟨t, taken, nearer⟩ := wait.direct direct working
        exact ⟨.direct 0, t, rfl, taken, nearer⟩

end Waiting

/-- **The gateway never gives up.**  Once `main` has called `cloud_connect`, and in every run
in which no link is lost while a cancellation of `connect_work` is going on: wherever the link
is down, the steps of the work queue and of the call of `main` alone lead to one more call of
`nrf_cloud_connect`. -/
theorem never_gives_up (run : Reachable step Init inTurn l) (running : l.gateway.halted = false)
    (called : l.direct ≠ none) (down : l.cloudConnected = false) :
    ∃ t, Leads step Own l t ∧ t.attempts = l.attempts + 1 :=
  Leads.exists_of_rank (P := Waiting l.attempts) (rank untilConnect)
    (fun _ wait => wait.moves) ⟨watched_of_reachable run, down, called, running, rfl⟩

/-- A link that is lost before the retry: the work is delayed, and does come. -/
theorem retry_comes : ∃ t, Leads step Own
    ({ start with connectWork := .schedule .idle retryConnectWait, direct := some .returned,
                  attempts := 1 } : Link) t ∧ t.attempts = 2 := by
  have taken : exec step inTurn start [.callDirect, .direct 0, .direct 0, .direct 0] =
      some { start with connectWork := .schedule .idle retryConnectWait, direct := some .returned,
                        attempts := 1 } := rfl
  exact never_gives_up (reachable_of_exec start_init taken) rfl nofun rfl

/-! ## A link lost too early -/

/-- No call of `cloud_connect` is under way, or ever to come. -/
structure Stopped (l : Link) : Prop where
  down : l.cloudConnected = false
  idle : l.connectWork.pending = false
  handler : l.handler = none
  direct : l.direct = some .returned

/-- The transport comes up or goes down. -/
def Act.transport : Act → Bool
  | .cloud .transportConnected => true
  | .cloud .transportDisconnected => true
  | _ => false

/-- Nothing but an event of the transport starts it again. -/
theorem Stopped.step (stopped : Stopped l) (other : a.transport = false)
    (taken : l.step a = some t) : Stopped t ∧ t.attempts = l.attempts := by
  obtain ⟨down, idle, handler, direct⟩ := stopped
  obtain ⟨delayed, queued⟩ := DelayableWork.pending_eq_false.mp idle
  have taken := act_of_step taken
  cases a with
  | gateway g =>
      obtain ⟨s, -, rfl⟩ := gateway_eq_some taken
      exact ⟨⟨down, idle, handler, direct⟩, rfl⟩
  | cloud evt =>
      cases taken
      obtain ⟨rfl, -⟩ | ⟨rfl, -⟩ | same := l.cloudEventHandler_cases evt
      · cases other
      · cases other
      · rw [same]
        exact ⟨⟨down, idle, handler, direct⟩, rfl⟩
  | callDirect => simp [act, direct] at taken
  | direct err => simp [act, direct] at taken
  | expire =>
      simp only [act, Option.map_eq_some_iff] at taken
      obtain ⟨w, expired, -⟩ := taken
      rw [(DelayableWork.expire_eq_some.mp expired).1] at delayed
      cases delayed
  | begin =>
      simp only [act, Option.map_eq_some_iff] at taken
      obtain ⟨w, begun, -⟩ := taken
      rw [(DelayableWork.begin_eq_some.mp begun).1] at queued
      cases queued
  | handler err => simp [act, handler] at taken
  | finish => simp [act, handler] at taken

theorem Stopped.stays {acts : List Act} (stopped : Stopped l)
    (others : ∀ a ∈ acts, a.transport = false) (taken : exec Link.step unguarded l acts = some t) :
    Stopped t ∧ t.attempts = l.attempts := by
  induction acts generalizing l with
  | nil =>
      cases taken
      exact ⟨stopped, rfl⟩
  | cons a rest ih =>
      simp only [exec, unguarded, if_true, Option.bind_eq_some_iff] at taken
      obtain ⟨w, first, tail⟩ := taken
      obtain ⟨middle, same⟩ := stopped.step (others a (by simp)) first
      obtain ⟨last, more⟩ := ih middle (fun b member => others b (by simp [member])) tail
      exact ⟨last, more.trans same⟩

theorem runs_of_reachable (run : Reachable step Init unguarded l) : l.Runs :=
  run.invariant (fun _ init => (Watched.of_init init).runs) fun _ _ _ inv _ taken =>
    inv.act (act_of_step taken)

/-- The link was lost while the work was being cancelled. -/
structure Lost (l : Link) : Prop where
  runs : l.Runs
  down : l.cloudConnected = false
  canceling : l.connectWork.canceling = true
  direct : l.direct = some .returned
  running : l.gateway.halted = false

/-- The statements that the call of the work queue still makes. -/
def untilReturn : ConnectPc → Nat
  | .check => 3
  | .connect => 2
  | .schedule => 1
  | .returned => 0

/-- The call of the work queue goes on: what it schedules is refused. -/
theorem Lost.handler (lost : Lost l) {pc : ConnectPc} (found : l.handler = some pc)
    (working : pc ≠ .returned) :
    ∃ t, l.step (.handler 0) = some t ∧ Lost t ∧
      (t.handler.map untilReturn).getD 0 < (l.handler.map untilReturn).getD 0 := by
  have taken : l.act (.handler 0) =
      some { (l.cloudConnect pc 0).1 with handler := some (l.cloudConnect pc 0).2 } := by
    simp only [act, found]
  refine ⟨_, (step_eq_act lost.running _).trans taken,
    ⟨lost.runs.act taken, by simpa using lost.down, by simpa using lost.canceling,
      by simpa using lost.direct, ?_⟩, ?_⟩
  · have same : (l.cloudConnect pc 0).1.gateway = l.gateway := by
      cases pc <;> simp [cloudConnect]
      split <;> rfl
    simpa [same] using lost.running
  · cases pc with
    | check => simp [cloudConnect, lost.down, found, untilReturn]
    | connect => simp [cloudConnect, found, untilReturn]
    | schedule => simp [cloudConnect, found, untilReturn]
    | returned => exact absurd rfl working

/-- The queue is done with the work: nothing of it is left. -/
theorem Lost.finish (lost : Lost l) (ended : l.handler = some .returned) :
    ∃ t, l.step .finish = some t ∧ Stopped t := by
  have taken : l.act .finish =
      some { l with connectWork := l.connectWork.finish, handler := none } := by
    simp only [act, ended, if_pos]
  have idle := DelayableWork.pending_of_canceling lost.canceling
  exact ⟨_, (step_eq_act lost.running _).trans taken, lost.down, idle, rfl, lost.direct⟩

theorem Lost.moves (lost : Lost l) :
    ∃ a t, Own a ∧ l.step a = some t ∧ (Stopped t ∨ Lost t ∧
      (t.handler.map untilReturn).getD 0 < (l.handler.map untilReturn).getD 0) := by
  have busy : l.handler.isSome = true := lost.runs ▸ (l.connectWork.marked lost.canceling).1
  obtain ⟨pc, found⟩ := Option.isSome_iff_exists.mp busy
  by_cases ended : pc = .returned
  · subst ended
    obtain ⟨t, taken, stopped⟩ := lost.finish found
    exact ⟨.finish, t, trivial, taken, .inl stopped⟩
  · obtain ⟨t, taken, nearer⟩ := lost.handler found ended
    exact ⟨.handler 0, t, rfl, taken, .inr nearer⟩

/-- **A link lost while the work is being cancelled is not sought again.**  In every run: when
the call of `main` is over and the link is lost during a cancellation of `connect_work`, the
work queue alone comes to a state from which no order of steps without another event of the
transport calls `nrf_cloud_connect`. -/
theorem lost_while_canceling (run : Reachable step Init unguarded l)
    (running : l.gateway.halted = false) (direct : l.direct = some .returned)
    (canceling : l.connectWork.canceling = true) :
    ∃ t, Leads step Own (l.cloudEventHandler .transportDisconnected) t ∧
      ∀ acts u, (∀ a ∈ acts, a.transport = false) → exec step unguarded t acts = some u →
        u.cloudConnected = false ∧ u.attempts = t.attempts := by
  have runs := (runs_of_reachable run).act (a := .cloud .transportDisconnected) rfl
  have lost : Lost (l.cloudEventHandler .transportDisconnected) :=
    ⟨runs, rfl, (DelayableWork.canceling_schedule _).trans canceling, direct, running⟩
  obtain ⟨t, leads, stopped⟩ := Leads.exists_of_rank (P := Lost)
    (fun l => (l.handler.map untilReturn).getD 0) (fun _ lost => lost.moves) lost
  refine ⟨t, leads, fun acts u others taken => ?_⟩
  obtain ⟨still, same⟩ := stopped.stays others taken
  exact ⟨still.down, same⟩

/-- The retry is in `nrf_cloud_connect` when the link comes up, and is lost again. -/
theorem lost_while_connecting :
    ∃ l : Link, l.connectWork.canceling = true ∧
      ∃ t, Leads step Own (l.cloudEventHandler .transportDisconnected) t ∧
        ∀ acts u, (∀ a ∈ acts, a.transport = false) → exec step unguarded t acts = some u →
          u.cloudConnected = false ∧ u.attempts = t.attempts := by
  have found : (exec step unguarded start [.callDirect, .direct 0, .direct 0, .direct 0, .expire,
      .begin, .handler 0, .cloud .transportConnected]).any
        (fun l => !l.gateway.halted && l.direct == some .returned && l.connectWork.canceling) =
      true := by decide +kernel
  obtain ⟨l, run, holds⟩ := exists_reachable_of_exec start_init found
  simp only [Bool.and_eq_true, Bool.not_eq_true', beq_iff_eq] at holds
  obtain ⟨⟨running, direct⟩, canceling⟩ := holds
  exact ⟨l, canceling, lost_while_canceling run running direct canceling⟩

/-! ## While the link is up -/

/-- The steps of `cloud_connect`, of its timer and of its work queue. -/
def Act.connecting : Act → Bool
  | .gateway _ => false
  | .cloud _ => false
  | _ => true

/-- The calls of `cloud_connect` that have passed their test. -/
def pastCheck (l : Link) : Nat :=
  (if l.handler = some .connect then 1 else 0) + (if l.direct = some .connect then 1 else 0)

/-- The steps until everything rests. -/
def untilRest : ConnectPc → Nat
  | .check => 2
  | .connect => 7
  | .schedule => 6
  | .returned => 1

/-- What holds between a state with the link up and a later one. -/
structure Settles (steps : Nat) (l t : Link) : Prop where
  up : t.cloudConnected = true
  called : t.direct ≠ none
  nearer : steps + t.rank untilRest ≤ l.rank untilRest
  fewer : t.attempts + t.pastCheck ≤ l.attempts + l.pastCheck

/-- A statement of `cloud_connect` with the link up: what it may still do gets less. -/
theorem cloudConnect_settles {pc : ConnectPc} (up : l.cloudConnected = true)
    (working : pc ≠ .returned) (err : Int) :
    (l.cloudConnect pc err).1.connectWork.toRun 2 + untilRest (l.cloudConnect pc err).2 <
        l.connectWork.toRun 2 + untilRest pc ∧
      (l.cloudConnect pc err).1.attempts +
          (if (l.cloudConnect pc err).2 = .connect then 1 else 0) ≤
        l.attempts + if pc = .connect then 1 else 0 := by
  cases pc with
  | check => simp [cloudConnect, up, untilRest]
  | connect =>
      simp only [cloudConnect]
      split <;> simp [untilRest]
  | schedule =>
      have bound := l.connectWork.toRun_schedule_le 2 retryConnectWait
      simp only [cloudConnect, untilRest, reduceCtorEq, if_false]
      exact ⟨by omega, Nat.le_refl _⟩
  | returned => exact absurd rfl working

/-- The link goes down. -/
def Act.loses : Act → Bool
  | .cloud .transportDisconnected => true
  | _ => false

namespace Settles

/-- Nothing of the work and of the calls is touched. -/
theorem quiet (up : t.cloudConnected = true) (called : l.direct ≠ none)
    (work : t.connectWork.toRun 2 ≤ l.connectWork.toRun 2) (handler : t.handler = l.handler)
    (direct : t.direct = l.direct) (attempts : t.attempts = l.attempts) : Settles 0 l t := by
  refine ⟨up, direct ▸ called, ?_, ?_⟩
  · simp only [rank, handler, direct]
    omega
  · simp only [pastCheck, handler, direct, attempts]
    exact Nat.le_refl _

theorem act (up : l.cloudConnected = true) (called : l.direct ≠ none) (kept : a.loses = false)
    (taken : l.act a = some t) : Settles a.connecting.toNat l t := by
  cases a with
  | gateway g =>
      obtain ⟨s, -, rfl⟩ := gateway_eq_some taken
      exact quiet up called (Nat.le_refl _) rfl rfl rfl
  | cloud evt =>
      cases taken
      obtain ⟨rfl, same⟩ | ⟨rfl, -⟩ | same := l.cloudEventHandler_cases evt
      · rw [same]
        exact quiet rfl called (by simp) rfl rfl rfl
      · cases kept
      · rw [same]
        exact quiet up called (Nat.le_refl _) rfl rfl rfl
  | callDirect => simp [Link.act, called] at taken
  | direct err =>
      obtain ⟨pc, found, working, rfl⟩ := direct_eq_some taken
      obtain ⟨nearer, fewer⟩ := cloudConnect_settles up working err
      refine ⟨by simpa using up, nofun, ?_, ?_⟩
      · simp only [rank, cloudConnect_handler, found, Option.map_some, Option.getD_some,
          Act.connecting, Bool.toNat_true]
        omega
      · simp only [pastCheck, cloudConnect_handler, found, Option.some.injEq]
        omega
  | expire =>
      simp only [Link.act, Option.map_eq_some_iff] at taken
      obtain ⟨w, expired, rfl⟩ := taken
      have nearer := DelayableWork.toRun_expire_lt (n := 2) expired
      refine ⟨up, called, ?_, Nat.le_refl _⟩
      simp only [rank, Act.connecting, Bool.toNat_true]
      omega
  | begin =>
      simp only [Link.act, Option.map_eq_some_iff] at taken
      obtain ⟨w, begun, rfl⟩ := taken
      have nearer := DelayableWork.toRun_begin_lt (n := 2) begun
      refine ⟨up, called, ?_, ?_⟩
      · simp only [rank, Option.map_some, Option.getD_some, untilRest, Act.connecting,
          Bool.toNat_true]
        omega
      · simp only [pastCheck, Option.some.injEq, reduceCtorEq, if_false]
        omega
  | handler err =>
      obtain ⟨pc, found, working, rfl⟩ := handler_eq_some taken
      obtain ⟨nearer, fewer⟩ := cloudConnect_settles up working err
      refine ⟨by simpa using up, by simpa using called, ?_, ?_⟩
      · simp only [rank, cloudConnect_direct, found, Option.map_some, Option.getD_some,
          Act.connecting, Bool.toNat_true]
        omega
      · simp only [pastCheck, cloudConnect_direct, found, Option.some.injEq]
        omega
  | finish =>
      simp only [Link.act, Option.ite_none_right_eq_some, Option.some.injEq] at taken
      obtain ⟨ended, rfl⟩ := taken
      refine ⟨up, called, ?_, ?_⟩
      · simp only [rank, ended, DelayableWork.toRun_finish, Option.map_some, Option.getD_some,
          Option.map_none, Option.getD_none, untilRest, Act.connecting, Bool.toNat_true]
        omega
      · simp only [pastCheck, reduceCtorEq, if_false]
        omega

theorem exec {acts : List Act} (up : l.cloudConnected = true) (called : l.direct ≠ none)
    (kept : ∀ a ∈ acts, a.loses = false) (taken : exec step unguarded l acts = some t) :
    Settles (acts.countP Act.connecting) l t := by
  induction acts generalizing l with
  | nil =>
      cases taken
      exact ⟨up, called, by simp, Nat.le_refl _⟩
  | cons a rest ih =>
      simp only [Theory.exec, unguarded, if_true, Option.bind_eq_some_iff] at taken
      obtain ⟨w, first, tail⟩ := taken
      have one := act up called (kept a (by simp)) (act_of_step first)
      have more := ih one.up one.called (fun b member => kept b (by simp [member])) tail
      refine ⟨more.up, more.called, ?_, Nat.le_trans more.fewer one.fewer⟩
      have first := one.nearer
      have later := more.nearer
      rw [List.countP_cons]
      cases moved : a.connecting <;> simp only [moved, Bool.toNat_true, Bool.toNat_false] at first
      · simp only [Bool.false_eq_true, if_false]
        omega
      · simp only [if_true]
        omega

end Settles

theorem untilRest_le (pc : Option ConnectPc) : (pc.map untilRest).getD 0 ≤ 7 := by
  cases pc with
  | none => exact Nat.zero_le _
  | some pc => cases pc <;> simp [untilRest]

/-- **While the link is up, connecting comes to rest.**  From any state with the link up and
`main` past its call of `cloud_connect`, every order of steps that does not lose the link
holds at most 21 steps of `cloud_connect` and its work queue, and `nrf_cloud_connect` is
called only by the calls that had passed their test of `cloud_connected`. -/
theorem settles {acts : List Act} (up : l.cloudConnected = true) (called : l.direct ≠ none)
    (kept : ∀ a ∈ acts, a.loses = false) (taken : exec step unguarded l acts = some t) :
    acts.countP Act.connecting ≤ 21 ∧ t.attempts ≤ l.attempts + l.pastCheck := by
  have settled := Settles.exec up called kept taken
  have nearer := settled.nearer
  have fewer := settled.fewer
  have work := l.connectWork.toRun_le 2
  have handler := untilRest_le l.handler
  have direct := untilRest_le l.direct
  refine ⟨?_, by omega⟩
  simp only [rank] at nearer
  omega

/-- The retry is past its test when the link comes up: it connects once more, and no more. -/
theorem settles_once :
    [Act.handler 0, .handler 0, .finish].countP Act.connecting ≤ 21 ∧ 2 ≤ 1 + 1 :=
  settles (l := { start with
      cloudConnected := true, connectWork := ⟨false, false, true, true, by simp⟩,
      handler := some .connect, direct := some .returned, attempts := 1 })
    (t := { start with
      cloudConnected := true, connectWork := .idle, direct := some .returned, attempts := 2 })
    rfl nofun (by simp [Act.loses]) rfl

/-! ## A link lost after it was used -/

/-- Moreover, the link comes up only when the call of `main` is over. -/
def inOrder (l : Link) : Act → Bool
  | .cloud .transportConnected => l.direct = some .returned
  | .cloud .transportDisconnected => !l.connectWork.canceling
  | _ => true

/-- While the link is up, the work is not to run again. -/
structure Rests (l : Link) : Prop where
  runs : l.Runs
  rests : l.cloudConnected = true → l.direct = some .returned ∧ l.connectWork.pending = false ∧
    (l.connectWork.running = true → l.connectWork.canceling = true)

namespace Rests

theorem cloud (inv : Rests l) (evt : CloudEvt) (met : l.inOrder (.cloud evt) = true) :
    Rests (l.cloudEventHandler evt) := by
  have runs : Runs (l.cloudEventHandler evt) := inv.runs.act (a := .cloud evt) rfl
  obtain ⟨rfl, same⟩ | ⟨rfl, same⟩ | same := l.cloudEventHandler_cases evt
  all_goals
    rw [same] at runs ⊢
    refine ⟨runs, ?_⟩
  · intro _
    exact ⟨by simpa [inOrder] using met, rfl, id⟩
  · intro up
    cases up
  · exact inv.rests

theorem act (inv : Rests l) (met : l.inOrder a = true) (taken : l.act a = some t) : Rests t := by
  have runs := inv.runs.act taken
  cases a with
  | gateway g =>
      obtain ⟨s, -, rfl⟩ := gateway_eq_some taken
      exact ⟨runs, inv.rests⟩
  | cloud evt =>
      cases taken
      exact inv.cloud evt met
  | callDirect =>
      simp only [Link.act, Option.ite_none_right_eq_some, Option.some.injEq] at taken
      obtain ⟨before, rfl⟩ := taken
      refine ⟨runs, fun up => ?_⟩
      have ended := (inv.rests up).1
      rw [before] at ended
      cases ended
  | direct err =>
      obtain ⟨pc, found, working, rfl⟩ := direct_eq_some taken
      refine ⟨runs, fun up => ?_⟩
      have ended := (inv.rests (by simpa using up)).1
      exact absurd (Option.some.inj (found.symm.trans ended)) working
  | expire =>
      simp only [Link.act, Option.map_eq_some_iff] at taken
      obtain ⟨w, expired, rfl⟩ := taken
      refine ⟨runs, fun up => ?_⟩
      have idle := DelayableWork.pending_eq_false.mp (inv.rests up).2.1
      rw [(DelayableWork.expire_eq_some.mp expired).1] at idle
      cases idle.1
  | begin =>
      simp only [Link.act, Option.map_eq_some_iff] at taken
      obtain ⟨w, begun, rfl⟩ := taken
      refine ⟨runs, fun up => ?_⟩
      have idle := DelayableWork.pending_eq_false.mp (inv.rests up).2.1
      rw [(DelayableWork.begin_eq_some.mp begun).1] at idle
      cases idle.2
  | handler err =>
      obtain ⟨pc, found, working, rfl⟩ := handler_eq_some taken
      refine ⟨runs, fun up => ?_⟩
      obtain ⟨ended, idle, marked⟩ := inv.rests (by simpa using up)
      -- the handler runs, so that the work is being cancelled and not scheduled
      have running : l.connectWork.running = true := by rw [inv.runs, found]; rfl
      have same : (l.cloudConnect pc err).1.connectWork = l.connectWork := by
        rw [cloudConnect_connectWork, DelayableWork.schedule_of_canceling _ (marked running),
          ite_self]
      exact ⟨by simpa using ended, by rw [same]; exact idle, by rw [same]; exact marked⟩
  | finish =>
      simp only [Link.act, Option.ite_none_right_eq_some, Option.some.injEq] at taken
      obtain ⟨-, rfl⟩ := taken
      exact ⟨runs, fun up => ⟨(inv.rests up).1, (inv.rests up).2.1, fun running => running⟩⟩

end Rests

theorem rests_of_reachable (run : Reachable step Init inOrder l) : Rests l := by
  refine run.invariant (fun _ init => ⟨(Watched.of_init init).runs, fun up => ?_⟩)
    fun _ _ _ inv met taken => inv.act met (act_of_step taken)
  rw [init.down] at up
  cases up

/-- **A link that was up is sought again at once.**  In every run in which the link comes up
only when the call of `main` is over, and is not lost during a cancellation of `connect_work`:
when a link that is up is lost, the work is in the queue, with no call of `cloud_connect` under
way and no time to pass. -/
theorem reconnects_at_once (run : Reachable step Init inOrder l) (up : l.cloudConnected = true)
    (free : l.connectWork.canceling = false) :
    (l.cloudEventHandler .transportDisconnected).connectWork.queued = true ∧
      (l.cloudEventHandler .transportDisconnected).connectWork.delayed = false ∧
      l.handler = none ∧ l.direct = some .returned := by
  obtain ⟨ended, idle, marked⟩ := (rests_of_reachable run).rests up
  have runs := (rests_of_reachable run).runs
  have stopped : l.connectWork.running = false :=
    eq_false_of_ne_true fun running => by simp [marked running] at free
  refine ⟨DelayableWork.queued_schedule_noWait idle free, ?_, ?_, ended⟩
  · obtain ⟨delayed, queued⟩ := DelayableWork.pending_eq_false.mp idle
    simp [cloudEventHandler, DelayableWork.schedule, delayed, queued, free]
  · rw [Runs, stopped] at runs
    exact Option.not_isSome_iff_eq_none.mp (by simp [← runs])

/-- The link comes up while the work is delayed, and goes down again. -/
theorem reconnects_once_up : ∃ l : Link, l.attempts = 1 ∧
    (l.cloudEventHandler .transportDisconnected).connectWork.queued = true := by
  have found : (exec step inOrder start [.callDirect, .direct 0, .direct 0, .direct 0,
      .cloud .transportConnected]).any
        (fun l => l.attempts == 1 && l.cloudConnected && !l.connectWork.canceling) = true := by
    decide +kernel
  obtain ⟨l, run, holds⟩ := exists_reachable_of_exec start_init found
  simp only [Bool.and_eq_true, Bool.not_eq_true', beq_iff_eq] at holds
  obtain ⟨⟨attempts, up⟩, free⟩ := holds
  exact ⟨l, attempts, (reconnects_at_once run up free).1⟩

/-! ## The rest of the gateway -/

/-- A statement of `cloud_connect` leaves the rest alone, or is the end of the run. -/
theorem cloudConnect_gateway (l : Link) (pc : ConnectPc) (err : Int) :
    (l.cloudConnect pc err).1.gateway = l.gateway ∨
      (l.cloudConnect pc err).1.gateway.halted = true := by
  cases pc with
  | check =>
      left
      simp only [cloudConnect]
      split <;> rfl
  | connect =>
      simp only [cloudConnect]
      split
      · exact .inr rfl
      · exact .inl rfl
  | schedule => exact .inl rfl
  | returned => exact .inl rfl

theorem act_gateway (taken : l.act a = some t) :
    t.gateway = l.gateway ∨ t.gateway.halted = true ∨
      ∃ g, l.gateway.act g = some t.gateway := by
  cases a with
  | gateway g =>
      obtain ⟨s, moved, rfl⟩ := gateway_eq_some taken
      exact .inr (.inr ⟨g, moved⟩)
  | cloud evt =>
      cases taken
      refine .inr (.inr ⟨.cloud evt, ?_⟩)
      obtain ⟨-, same⟩ | ⟨-, same⟩ | same := l.cloudEventHandler_cases evt
      all_goals rw [same, State.act]
  | callDirect =>
      simp only [act, Option.ite_none_right_eq_some, Option.some.injEq] at taken
      obtain ⟨-, rfl⟩ := taken
      exact .inl rfl
  | direct err =>
      obtain ⟨pc, -, -, rfl⟩ := direct_eq_some taken
      exact (l.cloudConnect_gateway pc err).imp_right .inl
  | expire =>
      simp only [act, Option.map_eq_some_iff] at taken
      obtain ⟨w, -, rfl⟩ := taken
      exact .inl rfl
  | begin =>
      simp only [act, Option.map_eq_some_iff] at taken
      obtain ⟨w, -, rfl⟩ := taken
      exact .inl rfl
  | handler err =>
      obtain ⟨pc, -, -, rfl⟩ := handler_eq_some taken
      exact (l.cloudConnect_gateway pc err).imp_right .inl
  | finish =>
      simp only [act, Option.ite_none_right_eq_some, Option.some.injEq] at taken
      obtain ⟨-, rfl⟩ := taken
      exact .inl rfl

/-- Until the gateway reboots, its notifications, its alarm and its main loop make a run of
their own, of which what is proved of `State` holds. -/
theorem gateway_reachable {ok : Link → Act → Bool} (run : Reachable step Init ok l)
    (running : l.gateway.halted = false) :
    Reachable State.step State.Init unguarded l.gateway := by
  induction run with
  | start init => exact .start init.gateway
  | @next l t a before _ taken ih =>
      rw [step] at taken
      split at taken
      · cases taken
      · rename_i going
        have earlier := ih (eq_false_of_ne_true going)
        rcases act_gateway taken with same | ended | ⟨g, moved⟩
        · rw [same]
          exact earlier
        · rw [ended] at running
          cases running
        · exact .next earlier rfl ((if_neg going).trans moved)

end Link

end NcsExp.Gateway
