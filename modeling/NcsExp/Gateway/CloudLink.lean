/-
# NcsExp.Gateway.CloudLink -- no data is lost to a missing cloud link, if there is none missing

What `send_aggregated_data` takes out of the aggregator it drops for its format or hands
to the cloud library, unless `sensor_data_send` finds `send_data_enable` 0: then the entry
is gone, and so is the alarm.

* `loses_nothing`: in the runs in which an alarm is taken, and `sensor_data_send` called,
  only while the flag is 1, every entry is accounted for and no alarm is discarded.
* `linkDown_loses`: the first step that does not meet this loses an entry or an alarm.
-/
import NcsExp.Gateway.Records

namespace NcsExp.Gateway

open NcsExp.Theory

set_option autoImplicit false

/-! ## The account -/

def Event.taken? : Event → Option SensorData
  | .taken d => some d
  | _ => none

def Event.settled? : Event → Option SensorData
  | .rejected d => some d
  | .handed d _ _ => some d
  | _ => none

/-- The entries that left the aggregator other than by being overwritten. -/
def takenOf (log : List Event) : List SensorData := log.filterMap Event.taken?

/-- Those that were dropped for their format or handed to the cloud library. -/
def settledOf (log : List Event) : List SensorData := log.filterMap Event.settled?

/-- The entry that the main loop is at. -/
def Pc.held : Pc → List SensorData
  | .idle => []
  | .alarmed => []
  | .draining => []
  | .switching d => [d]
  | .sending d _ => [d]

structure LosesNothing (m : State) : Prop where
  stored : Stored m
  settled : takenOf m.log = settledOf m.log ++ m.pc.held
  /-- Only an entry of the wrong format is dropped. -/
  rejected : ∀ d, Event.rejected d ∈ m.log → cloudData d = none
  /-- No alarm is discarded for want of a cloud link. -/
  alarms : Event.alarmTaken false ∉ m.log

/-- An alarm is taken, and `sensor_data_send` called, only while `send_data_enable` is 1. -/
def State.linkUp (m : State) : Act → Bool
  | .main _ =>
      match m.pc with
      | .alarmed => m.sendDataEnable
      | .switching d => (cloudData d).isNone || m.sendDataEnable
      | _ => true
  | _ => true

@[simp] theorem takenOf_snoc (log : List Event) (e : Event) :
    takenOf (log ++ [e]) = takenOf log ++ e.taken?.toList := by
  cases e <;> simp [takenOf, Event.taken?]

@[simp] theorem settledOf_snoc (log : List Event) (e : Event) :
    settledOf (log ++ [e]) = settledOf log ++ e.settled?.toList := by
  cases e <;> simp [settledOf, Event.settled?]

/-! ## The account is kept -/

/-- What the account needs of the log and of the main loop. -/
structure Account (m : State) : Prop where
  settled : takenOf m.log = settledOf m.log ++ m.pc.held
  rejected : ∀ d, Event.rejected d ∈ m.log → cloudData d = none
  alarms : Event.alarmTaken false ∉ m.log

/-- An entry that is dropped has the wrong format, and an alarm is taken with the link up. -/
def Event.harmless : Event → Bool
  | .rejected d => (cloudData d).isNone
  | .alarmTaken enabled => enabled
  | _ => true

namespace Account

variable {m t : State} {e : Event}

theorem quiet (inv : Account m) (log : t.log = m.log) (held : t.pc.held = m.pc.held) :
    Account t := by
  obtain ⟨settled, rejected, alarms⟩ := inv
  refine ⟨?_, ?_, ?_⟩
  · rw [log, held]
    exact settled
  · rw [log]
    exact rejected
  · rw [log]
    exact alarms

/-- One more event. -/
theorem snoc (inv : Account m) (log : t.log = m.log ++ [e])
    (settled : m.pc.held ++ e.taken?.toList = e.settled?.toList ++ t.pc.held)
    (harmless : e.harmless = true) : Account t := by
  refine ⟨?_, ?_, ?_⟩
  · rw [log, takenOf_snoc, settledOf_snoc, inv.settled, List.append_assoc, settled,
      List.append_assoc]
  · intro d member
    rw [log, List.mem_append, List.mem_singleton] at member
    rcases member with before | rfl
    · exact inv.rejected d before
    · exact Option.isNone_iff_eq_none.mp harmless
  · rw [log, List.mem_append, List.mem_singleton]
    rintro (before | rfl)
    · exact inv.alarms before
    · cases harmless

/-- What is stored is neither taken nor settled. -/
theorem put (inv : Account m) (r : Record) (d : SensorData) (alloc : Option Ptr) :
    Account (m.put r d alloc) := by
  rw [State.put]
  split
  · refine inv.snoc rfl ?_ rfl
    simp [Event.taken?, Event.settled?, State.note]
  · exact inv.quiet rfl rfl

theorem mainStep (inv : Account m) (err : Int) (up : m.linkUp (.main err) = true) :
    Account (m.mainStep err) := by
  cases pc : m.pc with
  | idle =>
      simp only [State.mainStep, pc]
      split
      · exact inv.quiet rfl (by rw [pc]; rfl)
      · exact inv
  | alarmed =>
      have enabled : m.sendDataEnable = true := by simpa [State.linkUp, pc] using up
      simp only [State.mainStep, pc]
      refine inv.snoc rfl ?_ enabled
      rw [pc]
      rfl
  | draining =>
      simp only [State.mainStep, pc]
      split
      · refine inv.snoc rfl ?_ rfl
        rw [pc]
        rfl
      · exact inv.quiet rfl (by rw [pc]; rfl)
  | switching d =>
      simp only [State.mainStep, pc]
      cases format : cloudData d with
      | none =>
          refine inv.snoc rfl ?_ (Option.isNone_iff_eq_none.mpr format)
          rw [pc]
          rfl
      | some c =>
          have enabled : m.sendDataEnable = true := by
            simpa [State.linkUp, pc, format] using up
          refine inv.snoc (e := .called c) ?_ ?_ rfl
          · simp [State.sensorDataSend, State.note, enabled]
          · rw [pc]
            simp [State.sensorDataSend, State.note, enabled, Pc.held, Event.taken?,
              Event.settled?]
  | sending d c =>
      simp only [State.mainStep, pc, State.cloudCall]
      split
      · refine inv.snoc rfl ?_ rfl
        rw [pc]
        rfl
      · refine inv.snoc rfl ?_ rfl
        rw [pc]
        rfl

end Account

/-- The step lemma. -/
theorem account_step {m t : State} {a : Act} (inv : Account m) (up : m.linkUp a = true)
    (taken : m.step a = some t) : Account t := by
  rcases step_cases taken with ⟨err, rfl, rfl⟩ | same | ⟨r, d, alloc, _, _, same⟩
  · exact inv.mainStep err up
  · exact inv.quiet same.log (congrArg Pc.held same.pc)
  · exact (inv.put r d alloc).quiet same.log (congrArg Pc.held same.pc)

theorem reachable_account {m : State}
    (run : Reachable State.step State.Init State.linkUp m) : Account m := by
  apply run.invariant
  · intro m init
    refine ⟨?_, ?_, ?_⟩
    · rw [init.log, init.pc]
      rfl
    · simp [init.log]
    · simp [init.log]
  · exact fun _ _ _ inv up taken => account_step inv up taken

/-- **Nothing is lost while the cloud link is up.** -/
theorem loses_nothing {m : State} (run : Reachable State.step State.Init State.linkUp m) :
    LosesNothing m := by
  obtain ⟨settled, rejected, alarms⟩ := reachable_account run
  exact ⟨reachable_stored run, settled, rejected, alarms⟩

/-- A button press that is sent. -/
theorem loses_nothing_press :
    ∃ m, Reachable State.step State.Init State.linkUp m ∧ (settledOf m.log).length = 1 ∧
      LosesNothing m := by
  have found : (exec State.step State.linkUp State.start
      [.cloud (.ready 0 0), .onReceivedButton [1] (fun _ => 0) (some 1), .main 0, .main 0, .main 0,
        .main 0, .main 0, .main 0]).any (fun m => (settledOf m.log).length == 1) = true := by
    decide +kernel
  obtain ⟨m, run, sent⟩ := exists_reachable_of_exec State.start_init found
  exact ⟨m, run, beq_iff_eq.mp sent, loses_nothing run⟩

/-- The same press before the cloud is ready: the entry is taken out and nothing becomes
of it. -/
theorem press_before_ready_is_lost :
    ¬ ∀ m, Reachable State.step State.Init unguarded m → LosesNothing m := by
  intro never
  have found : (exec State.step unguarded State.start
      [.onReceivedButton [1] (fun _ => 0) (some 1), .main 0, .main 0, .main 0, .main 0]).any
      (fun m => (takenOf m.log).length == 1 && (settledOf m.log ++ m.pc.held).length == 0) =
      true := by
    decide +kernel
  obtain ⟨m, run, lost⟩ := exists_reachable_of_exec State.start_init found
  rw [Bool.and_eq_true, beq_iff_eq, beq_iff_eq, ← (never m run).settled] at lost
  omega

/-- **The first step without the link loses something.** -/
theorem linkDown_loses {m t : State} {a : Act}
    (run : Reachable State.step State.Init State.linkUp m) (down : m.linkUp a = false)
    (taken : m.step a = some t) : ¬ LosesNothing t := by
  intro kept
  have inv := reachable_account run
  cases a with
  | main err =>
      obtain ⟨_, same⟩ := Option.ite_none_left_eq_some.mp taken
      cases same
      cases pc : m.pc with
      | alarmed =>
          have disabled : m.sendDataEnable = false := by simpa [State.linkUp, pc] using down
          have alarms := kept.alarms
          simp [State.mainStep, pc, State.note, disabled] at alarms
      | switching d =>
          have both : (cloudData d).isNone = false ∧ m.sendDataEnable = false := by
            simpa [State.linkUp, pc] using down
          obtain ⟨format, disabled⟩ := both
          obtain ⟨c, format⟩ := Option.isSome_iff_exists.mp (Option.isNone_eq_false_iff.mp format)
          have gone : takenOf m.log = settledOf m.log := by
            simpa [State.mainStep, pc, format, State.sensorDataSend, State.note, disabled,
              Event.taken?, Event.settled?, Pc.held] using kept.settled
          have held := inv.settled
          rw [gone, pc] at held
          simp [Pc.held] at held
      | idle => simp [State.linkUp, pc] at down
      | draining => simp [State.linkUp, pc] at down
      | sending d c => simp [State.linkUp, pc] at down
  | _ => simp [State.linkUp] at down

end NcsExp.Gateway
