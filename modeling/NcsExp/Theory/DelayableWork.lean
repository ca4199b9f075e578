/-
# NcsExp.Theory.DelayableWork -- the flags of a delayable work item

`struct k_work_delayable` on its queue: it may be delayed, queued, running and
canceling, and be run again while it runs.  `schedule` does nothing to an item that
is delayed, queued or canceling; `cancel` takes back what is pending and, where
the handler runs, marks the item until the queue is done with it (`finish`).  That
an item is marked only while it runs, with nothing pending, is part of the type.
-/
import Mathlib.Logic.Basic

namespace NcsExp.Theory

set_option autoImplicit false

structure DelayableWork where
  delayed : Bool
  queued : Bool
  running : Bool
  canceling : Bool
  marked : canceling = true → running = true ∧ delayed = false ∧ queued = false
  deriving DecidableEq

/-- A timeout: `K_NO_WAIT`, or a time to pass. -/
inductive Delay
  | noWait
  | after (ms : Nat)
  deriving DecidableEq

namespace DelayableWork

/-- `k_work_init_delayable`. -/
def idle : DelayableWork := ⟨false, false, false, false, by simp⟩

/-- The handler will be called once more, whatever happens but a cancellation. -/
def pending (w : DelayableWork) : Bool := w.delayed || w.queued

/-- `k_work_schedule`. -/
def schedule (w : DelayableWork) (delay : Delay) : DelayableWork :=
  if accepts : w.delayed = false ∧ w.queued = false ∧ w.canceling = false then
    match delay with
    | .noWait => { w with queued := true, marked := by simp [accepts.2.2] }
    | .after _ => { w with delayed := true, marked := by simp [accepts.2.2] }
  else w

/-- `k_work_cancel_delayable`. -/
def cancel (w : DelayableWork) : DelayableWork where
  delayed := false
  queued := false
  running := w.running
  canceling := w.running
  marked := fun running => ⟨running, rfl, rfl⟩

/-- The time has passed. -/
def expire (w : DelayableWork) : Option DelayableWork :=
  if due : w.delayed = true then
    some { w with
      delayed := false
      queued := true
      marked := fun canceling => by simp [(w.marked canceling).2.1] at due }
  else none

/-- The queue calls the handler; it runs one handler at a time. -/
def begin (w : DelayableWork) : Option DelayableWork :=
  if free : w.queued = true ∧ w.running = false then
    some { w with
      queued := false
      running := true
      marked := fun canceling => by simp [(w.marked canceling).1] at free }
  else none

/-- The handler has returned. -/
def finish (w : DelayableWork) : DelayableWork :=
  { w with running := false, canceling := false, marked := by simp }

/-! ## What they do -/

variable {w v : DelayableWork}

theorem pending_eq_false : w.pending = false ↔ w.delayed = false ∧ w.queued = false :=
  Bool.or_eq_false_iff

/-- A marked item has nothing pending. -/
theorem pending_of_canceling (canceling : w.canceling = true) : w.pending = false :=
  pending_eq_false.mpr (w.marked canceling).2

/-- An item that is not being cancelled is pending after `schedule`. -/
theorem pending_schedule (delay : Delay) (free : w.canceling = false) :
    (w.schedule delay).pending = true := by
  unfold schedule
  split
  · cases delay <;> simp [pending]
  · rename_i refused
    apply eq_true_of_ne_false
    intro idle
    obtain ⟨delayed, queued⟩ := pending_eq_false.mp idle
    exact refused ⟨delayed, queued, free⟩

theorem schedule_of_pending (delay : Delay) (pending : w.pending = true) :
    w.schedule delay = w := by
  unfold schedule
  rw [dif_neg]
  rintro ⟨delayed, queued, -⟩
  rw [pending_eq_false.mpr ⟨delayed, queued⟩] at pending
  cases pending

/-- One that is, is left as it is. -/
theorem schedule_of_canceling (delay : Delay) (canceling : w.canceling = true) :
    w.schedule delay = w := by
  unfold schedule
  rw [dif_neg]
  rintro ⟨-, -, free⟩
  rw [free] at canceling
  cases canceling

/-- An item with nothing pending that is not being cancelled is in the queue at once. -/
theorem queued_schedule_noWait (idle : w.pending = false) (free : w.canceling = false) :
    (w.schedule .noWait).queued = true := by
  obtain ⟨delayed, queued⟩ := pending_eq_false.mp idle
  unfold schedule
  rw [dif_pos ⟨delayed, queued, free⟩]

@[simp] theorem running_schedule (delay : Delay) : (w.schedule delay).running = w.running := by
  unfold schedule
  split
  · cases delay <;> rfl
  · rfl

@[simp] theorem canceling_schedule (delay : Delay) :
    (w.schedule delay).canceling = w.canceling := by
  unfold schedule
  split
  · cases delay <;> rfl
  · rfl

@[simp] theorem pending_cancel : w.cancel.pending = false := rfl

@[simp] theorem running_cancel : w.cancel.running = w.running := rfl

@[simp] theorem canceling_cancel : w.cancel.canceling = w.running := rfl

@[simp] theorem pending_finish : w.finish.pending = w.pending := rfl

@[simp] theorem running_finish : w.finish.running = false := rfl

@[simp] theorem canceling_finish : w.finish.canceling = false := rfl

theorem expire_eq_some : w.expire = some v ↔ w.delayed = true ∧ v.delayed = false ∧
    v.queued = true ∧ v.running = w.running ∧ v.canceling = w.canceling := by
  unfold expire
  split
  · rename_i delayed
    cases v
    simp [delayed, eq_comm]
  · rename_i idle
    simp [idle]

theorem begin_eq_some : w.begin = some v ↔ w.queued = true ∧ w.running = false ∧
    v.delayed = w.delayed ∧ v.queued = false ∧ v.running = true ∧ v.canceling = w.canceling := by
  unfold begin
  split
  · rename_i free
    cases v
    simp [free.1, free.2, eq_comm]
  · rename_i busy
    simp only [reduceCtorEq, false_iff]
    rintro ⟨queued, idle, -⟩
    exact busy ⟨queued, idle⟩

/-! ## How far the item is from rest

`w.toRun n` bounds the steps to come, where a call of the handler takes `n` of them. -/

def toRun (n : Nat) (w : DelayableWork) : Nat :=
  (n + 2) * w.delayed.toNat + (n + 1) * w.queued.toNat

theorem toRun_le (n : Nat) : w.toRun n ≤ 2 * n + 3 := by
  unfold toRun
  cases w.delayed <;> cases w.queued <;> simp <;> omega

theorem toRun_schedule_le (n : Nat) (delay : Delay) :
    (w.schedule delay).toRun n ≤ w.toRun n + (n + 2) := by
  unfold schedule
  split
  · rename_i idle
    cases delay <;> simp [toRun, idle]
  · exact Nat.le_add_right _ _

@[simp] theorem toRun_cancel (n : Nat) : w.cancel.toRun n = 0 := by simp [toRun, cancel]

@[simp] theorem toRun_finish (n : Nat) : w.finish.toRun n = w.toRun n := rfl

theorem toRun_expire_lt {n : Nat} (expired : w.expire = some v) : v.toRun n < w.toRun n := by
  obtain ⟨due, delayed, queued, -⟩ := expire_eq_some.mp expired
  simp only [toRun, due, delayed, queued, Bool.toNat_true, Bool.toNat_false]
  omega

theorem toRun_begin_lt {n : Nat} (begun : w.begin = some v) : v.toRun n + n < w.toRun n := by
  obtain ⟨due, -, delayed, queued, -⟩ := begin_eq_some.mp begun
  simp only [toRun, due, delayed, queued, Bool.toNat_true, Bool.toNat_false]
  omega

theorem exists_begin (queued : w.queued = true) (idle : w.running = false) :
    ∃ v, w.begin = some v := by
  unfold begin
  rw [dif_pos ⟨queued, idle⟩]
  exact ⟨_, rfl⟩

theorem exists_expire (delayed : w.delayed = true) : ∃ v, w.expire = some v := by
  unfold expire
  rw [dif_pos delayed]
  exact ⟨_, rfl⟩

end DelayableWork

end NcsExp.Theory
