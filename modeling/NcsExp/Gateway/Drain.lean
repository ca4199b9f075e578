/-
# NcsExp.Gateway.Drain -- what an alarm delivers

A drain is an uninterrupted run of `send_aggregated_data`.  What it should deliver of a
record is `Record.intended`: the whole text of an orientation or of a button state, and
the tag and the sentence of a GPS fix.

* `drain_cases`: the drain hands `cloudData` of each entry to `sensor_data_send`, in order,
  and empties the aggregator, or a call of the cloud library fails and it does not return.
* `delivers_iff`: it delivers what it should exactly when no text is stored, for of a text
  the last character is cut off.
-/
import NcsExp.Gateway.Records

namespace NcsExp.Gateway

open NcsExp.Theory

set_option autoImplicit false

/-! ## What should be delivered -/

/-- The whole text. -/
def fullString (type : NrfCloudSensor) (strings : List (List UInt8)) (value : UInt8) :
    Option NrfCloudSensorData :=
  strings[value.toNat]?.map fun string => ⟨type, string, 0⟩

def Record.intended : Record → Option NrfCloudSensorData
  | .orientation value => fullString .flip orientationStrings value
  | .button value => fullString .button buttonStrings value
  | .gps tag nmea => some ⟨.gps, nmea.buf, tag⟩

/-- An orientation or a button state that has a text. -/
def Record.isText : Record → Bool
  | .orientation value => decide (value.toNat < orientationStrings.length)
  | .button value => decide (value.toNat < buttonStrings.length)
  | .gps _ _ => false

def Record.isGps : Record → Bool
  | .gps _ _ => true
  | _ => false

theorem stringData_of_long {type : NrfCloudSensor} {strings : List (List UInt8)} {d : SensorData}
    {value : UInt8} (first : d.data 0 = value) (long : strings.length ≤ value.toNat) :
    stringData type strings d = fullString type strings value := by
  rw [stringData, fullString, first, if_pos (Or.inr long), List.getElem?_eq_none long,
    Option.map_none]

/-- A text loses its last character. -/
theorem stringData_of_text {type : NrfCloudSensor} {strings : List (List UInt8)} {d : SensorData}
    {value : UInt8} (one : d.length = 1) (first : d.data 0 = value)
    (text : value.toNat < strings.length) (nonempty : [] ∉ strings) :
    ∃ c full, stringData type strings d = some c ∧ fullString type strings value = some full ∧
      c ≠ full := by
  have accepted : ¬ (d.length ≠ 1 ∨ strings.length ≤ (d.data 0).toNat) := by
    rw [first]
    rintro (other | long)
    · exact other one
    · omega
  have string : strings.getD value.toNat [] = strings[value.toNat] := by
    rw [List.getD_eq_getElem?_getD, List.getElem?_eq_getElem text, Option.getD_some]
  refine ⟨_, ⟨type, strings[value.toNat], 0⟩, if_neg accepted, ?_, ?_⟩
  · rw [fullString, List.getElem?_eq_getElem text, Option.map_some]
  · intro same
    have lengths := congrArg (fun c => c.data.length) same
    simp only [first, string, List.length_take] at lengths
    have some : strings[value.toNat] ≠ [] := fun empty =>
      nonempty (List.mem_of_getElem empty)
    have positive := List.length_pos_of_ne_nil some
    omega

theorem cloudData_eq_intended {r : Record} {d : SensorData} (layout : Encodes r d)
    (noText : r.isText = false) : cloudData d = r.intended := by
  cases r with
  | orientation value =>
      obtain ⟨type, _, first⟩ := layout
      rw [cloudData, type]
      exact stringData_of_long first (Nat.le_of_not_lt (of_decide_eq_false noText))
  | button value =>
      obtain ⟨type, _, first⟩ := layout
      rw [cloudData, type]
      exact stringData_of_long first (Nat.le_of_not_lt (of_decide_eq_false noText))
  | gps tag nmea =>
      obtain ⟨type, length, word, sentence⟩ := layout
      rw [cloudData, type]
      simp only [length, word, sentence, Record.intended]

theorem cloudData_of_text {r : Record} {d : SensorData} (layout : Encodes r d)
    (text : r.isText = true) :
    ∃ c full, cloudData d = some c ∧ r.intended = some full ∧ c ≠ full := by
  cases r with
  | orientation value =>
      obtain ⟨type, one, first⟩ := layout
      rw [cloudData, type]
      exact stringData_of_text one first (of_decide_eq_true text) (by decide)
  | button value =>
      obtain ⟨type, one, first⟩ := layout
      rw [cloudData, type]
      exact stringData_of_text one first (of_decide_eq_true text) (by decide)
  | gps tag nmea => cases text

/-- What is sent is what should be exactly when no text is stored. -/
theorem filterMap_cloudData_iff {rs : List Record} {ds : List SensorData}
    (layout : List.Forall₂ Encodes rs ds) :
    ds.filterMap cloudData = rs.filterMap Record.intended ↔ ∀ r ∈ rs, r.isText = false := by
  induction layout with
  | nil => simp
  | @cons r d rs ds first _ ih =>
      rw [List.forall_mem_cons]
      cases text : r.isText with
      | false =>
          simp only [true_and, ← ih]
          rw [List.filterMap_cons, List.filterMap_cons, cloudData_eq_intended first text]
          cases r.intended with
          | none => rfl
          | some c => exact List.cons_inj_right c
      | true =>
          obtain ⟨c, full, sent, intended, other⟩ := cloudData_of_text first text
          rw [List.filterMap_cons_some sent, List.filterMap_cons_some intended]
          simp [other]

theorem isSome_intended {r : Record} (noText : r.isText = false) :
    r.intended.isSome = r.isGps := by
  cases r with
  | gps tag nmea => rfl
  | orientation value =>
      have long := Nat.le_of_not_lt (of_decide_eq_false noText)
      rw [Record.intended, fullString, List.getElem?_eq_none long]
      rfl
  | button value =>
      have long := Nat.le_of_not_lt (of_decide_eq_false noText)
      rw [Record.intended, fullString, List.getElem?_eq_none long]
      rfl

/-- Without texts, what should be delivered are the GPS fixes. -/
theorem length_intended {rs : List Record} (noText : ∀ r ∈ rs, r.isText = false) :
    (rs.filterMap Record.intended).length = (rs.filter Record.isGps).length := by
  rw [List.length_filterMap_eq_countP, ← List.countP_eq_length_filter]
  apply List.countP_congr
  intro r member
  rw [isSome_intended (noText r member)]

/-! ## The drain -/

def Event.called? : Event → Option NrfCloudSensorData
  | .called c => some c
  | _ => none

def Event.handed? : Event → Option NrfCloudSensorData
  | .handed _ _ c => some c
  | _ => none

/-- What `sensor_data_send` was called with. -/
def calledOf (log : List Event) : List NrfCloudSensorData := log.filterMap Event.called?

/-- What the cloud library was called with. -/
def handedOf (log : List Event) : List NrfCloudSensorData := log.filterMap Event.handed?

def Pc.isIdle : Pc → Bool
  | .idle => true
  | _ => false

theorem isIdle_iff {pc : Pc} : pc.isIdle = true ↔ pc = .idle := by
  cases pc <;> simp [Pc.isIdle]

/-- The main loop on its own, until `send_aggregated_data` returns or the error handler runs;
`cloud i` is what the `i`th call of the cloud library returns. -/
def State.runMain (cloud : Nat → Int) : Nat → State → State
  | 0, m => m
  | n + 1, m =>
      let t := m.mainStep (cloud (handedOf m.log).length)
      if t.halted || t.pc.isIdle then t else runMain cloud n t

/-- `send_aggregated_data`; an entry takes at most three steps. -/
def State.sendAggregatedData (m : State) (cloud : Nat → Int) : State :=
  m.runMain cloud (3 * m.aggregator.contents.length + 3)

variable {m t : State} {cloud : Nat → Int} {n : Nat}

theorem runMain_on {t : State} (step : m.mainStep (cloud (handedOf m.log).length) = t)
    (running : t.halted = false) (busy : t.pc.isIdle = false) :
    m.runMain cloud (n + 1) = t.runMain cloud n := by
  simp only [State.runMain, step, running, busy, Bool.or_self, Bool.false_eq_true, if_false]

theorem runMain_end {t : State} (step : m.mainStep (cloud (handedOf m.log).length) = t)
    (ended : (t.halted || t.pc.isIdle) = true) : m.runMain cloud (n + 1) = t := by
  simp only [State.runMain, step, ended, if_true]

/-- At the head of the loop, with the link up. -/
structure Draining (m : State) : Prop where
  books : Books m.aggregator
  pc : m.pc = .draining
  running : m.halted = false
  enabled : m.sendDataEnable = true

/-- How a drain of `ds` ends: it returns, or a call of the cloud library fails. -/
def Drained (cloud : Nat → Int) (ds : List SensorData) (m t : State) : Prop :=
  (t.halted = false ∧ t.pc = .idle ∧ t.aggregator.aggregatorFifo = [] ∧
      calledOf t.log = calledOf m.log ++ ds.filterMap cloudData ∧
      ∀ i < (ds.filterMap cloudData).length, cloud ((handedOf m.log).length + i) = 0) ∨
    t.halted = true ∧
      ∃ i < (ds.filterMap cloudData).length, cloud ((handedOf m.log).length + i) ≠ 0

/-- An entry of the wrong format. -/
theorem drained_dropped {d : SensorData} {ds : List SensorData} {m' : State}
    (format : cloudData d = none) (called : calledOf m'.log = calledOf m.log)
    (handed : handedOf m'.log = handedOf m.log) (rest : Drained cloud ds m' t) :
    Drained cloud (d :: ds) m t := by
  rw [Drained, called, handed] at rest
  rw [Drained, List.filterMap_cons_none format]
  exact rest

/-- An entry that the cloud library accepts. -/
theorem drained_sent {d : SensorData} {c : NrfCloudSensorData} {ds : List SensorData} {m' : State}
    (format : cloudData d = some c) (called : calledOf m'.log = calledOf m.log ++ [c])
    (handed : handedOf m'.log = handedOf m.log ++ [c])
    (accepted : cloud (handedOf m.log).length = 0) (rest : Drained cloud ds m' t) :
    Drained cloud (d :: ds) m t := by
  rw [Drained, List.filterMap_cons_some format, List.length_cons]
  have next (i : Nat) : (handedOf m'.log).length + i = (handedOf m.log).length + (i + 1) := by
    rw [handed, List.length_append, List.length_singleton]
    omega
  rcases rest with ⟨running, pc, empty, calls, accepts⟩ | ⟨halted, i, bound, failed⟩
  · refine Or.inl ⟨running, pc, empty, ?_, ?_⟩
    · rw [calls, called, List.append_assoc]
      rfl
    · intro i bound
      cases i with
      | zero => exact accepted
      | succ i => exact next i ▸ accepts i (Nat.lt_of_succ_lt_succ bound)
  · exact Or.inr ⟨halted, i + 1, Nat.succ_lt_succ bound, next i ▸ failed⟩

/-- The step that takes an entry. -/
def State.take (m : State) (g : Aggregator) (d : SensorData) : State :=
  { m.note (.taken d) with aggregator := g, pc := .switching d }

/-- The steps that drop it for its format, or give it to `sensor_data_send` and to the cloud
library. -/
def State.drop (m : State) (d : SensorData) : State :=
  { m.note (.rejected d) with pc := .draining }

def State.call (m : State) (d : SensorData) (c : NrfCloudSensorData) : State :=
  { m.note (.called c) with pc := .sending d c }

def State.hand (m : State) (d : SensorData) (c : NrfCloudSensorData) : State :=
  { m.note (.handed d (c.type = .flip) c) with pc := .draining }

theorem mainStep_take {g : Aggregator} {d : SensorData} {err : Int} (ready : Draining m)
    (got : aggregatorGet m.aggregator true = (g, 0, some d)) :
    m.mainStep err = m.take g d := by
  simp only [State.mainStep, ready.pc, got, State.take]

theorem mainStep_drop {d : SensorData} {err : Int} (pc : m.pc = .switching d)
    (format : cloudData d = none) : m.mainStep err = m.drop d := by
  simp only [State.mainStep, pc, format, State.drop]

theorem mainStep_call {d : SensorData} {c : NrfCloudSensorData} {err : Int}
    (pc : m.pc = .switching d) (format : cloudData d = some c) (enabled : m.sendDataEnable = true) :
    m.mainStep err = m.call d c := by
  simp only [State.mainStep, pc, format, State.sensorDataSend, State.note, enabled, State.call,
    Bool.not_true, Bool.false_eq_true, if_false]

theorem mainStep_hand {d : SensorData} {c : NrfCloudSensorData} {err : Int}
    (pc : m.pc = .sending d c) :
    m.mainStep err =
      if err ≠ 0 then (m.hand d c).nrfCloudErrorHandler else m.hand d c := by
  simp only [State.mainStep, pc, State.cloudCall, State.hand]

/-- One entry of a drain. -/
theorem runMain_entry {g : Aggregator} {d : SensorData} {ds : List SensorData} (ready : Draining m)
    (got : aggregatorGet m.aggregator true = (g, 0, some d)) (books : Books g)
    (rest : ∀ t, Draining t → t.aggregator = g → ∀ k, n ≤ k →
      Drained cloud ds t (t.runMain cloud k)) :
    Drained cloud (d :: ds) m (m.runMain cloud (n + 3)) := by
  have running : m.halted = false := ready.running
  have enabled : m.sendDataEnable = true := ready.enabled
  rw [runMain_on (mainStep_take ready got) running rfl]
  cases format : cloudData d with
  | none =>
      have next := rest ((m.take g d).drop d) ⟨books, rfl, running, enabled⟩ rfl
      rw [runMain_on (m := m.take g d) (mainStep_drop rfl format) running rfl]
      refine drained_dropped format ?_ ?_ (next (n + 1) (Nat.le_succ n))
      · simp [State.take, State.drop, State.note, calledOf, Event.called?, List.filterMap_cons]
      · simp [State.take, State.drop, State.note, handedOf, Event.handed?, List.filterMap_cons]
  | some c =>
      have next := rest (((m.take g d).call d c).hand d c) ⟨books, rfl, running, enabled⟩ rfl
      have calls : (handedOf ((m.take g d).call d c).log).length = (handedOf m.log).length := by
        simp [State.take, State.call, State.note, handedOf, Event.handed?, List.filterMap_cons]
      rw [runMain_on (m := m.take g d) (mainStep_call rfl format enabled) running rfl]
      by_cases accepted : cloud (handedOf m.log).length = 0
      · rw [runMain_on (m := (m.take g d).call d c) ((mainStep_hand rfl).trans (if_neg ?_))
          running rfl]
        · refine drained_sent format ?_ ?_ accepted (next n (Nat.le_refl n))
          · simp [State.take, State.call, State.hand, State.note, calledOf, Event.called?,
              List.filterMap_cons]
          · simp [State.take, State.call, State.hand, State.note, handedOf, Event.handed?,
              List.filterMap_cons]
        · rw [calls, accepted]
          exact fun different => different rfl
      · rw [runMain_end (m := (m.take g d).call d c) ((mainStep_hand rfl).trans (if_pos ?_)) rfl]
        · refine Or.inr ⟨rfl, 0, ?_, accepted⟩
          rw [List.filterMap_cons_some format]
          exact Nat.succ_pos _
        · rw [calls]
          exact accepted

/-- **The drain.** -/
theorem drain_cases {ds : List SensorData} (ready : Draining m)
    (holds : m.aggregator.contents = ds) (enough : 3 * ds.length + 1 ≤ n) :
    Drained cloud ds m (m.runMain cloud n) := by
  induction ds generalizing m n with
  | nil =>
      obtain ⟨n, rfl⟩ := Nat.exists_eq_add_of_le' (Nat.le_trans (Nat.le_add_left 1 _) enough)
      have empty : m.aggregator.aggregatorFifo = [] := List.map_eq_nil_iff.mp holds
      have last : m.mainStep (cloud (handedOf m.log).length) = { m with pc := .idle } := by
        simp only [State.mainStep, ready.pc, Books.get_empty empty]
      rw [runMain_end last (Bool.or_true _)]
      refine Or.inl ⟨ready.running, rfl, empty, (List.append_nil _).symm, ?_⟩
      intro i bound
      exact absurd bound (Nat.not_lt_zero i)
  | cons d ds ih =>
      rw [List.length_cons] at enough
      rcases ready.books.get_cases with ⟨_, empty⟩ | ⟨g, first, got, books, oldest⟩
      · rw [holds] at empty
        cases empty
      · rw [holds] at oldest
        obtain ⟨rfl, rest⟩ := List.cons.inj oldest
        obtain ⟨k, rfl⟩ : ∃ k, n = k + 3 := ⟨n - 3, by omega⟩
        refine runMain_entry ready got books fun t next same k' more => ?_
        exact ih next (same ▸ rest.symm) (by omega)

/-! ## What an alarm delivers -/

/-- `send_aggregated_data` gives to `sensor_data_send` what is stored, once each and in order,
and returns with the aggregator empty. -/
def Delivers (cloud : Nat → Int) (m : State) : Prop :=
  (m.sendAggregatedData cloud).halted = false ∧ (m.sendAggregatedData cloud).pc = .idle ∧
    calledOf (m.sendAggregatedData cloud).log =
      calledOf m.log ++ (queue m.log).filterMap Record.intended ∧
    (m.sendAggregatedData cloud).aggregator.aggregatorFifo = []

/-- After an alarm the entries are drained. -/
theorem alarm_drains (stored : Stored m) (idle : m.pc = .idle) (pending : m.alarmPending = true)
    (running : m.halted = false) (enabled : m.sendDataEnable = true) :
    Drained cloud m.aggregator.contents m (m.sendAggregatedData cloud) := by
  let alarmed : State := { m with pc := .alarmed }
  let cleared : State :=
    { m.note (.alarmTaken m.sendDataEnable) with alarmPending := false, pc := .draining }
  have first : m.mainStep (cloud (handedOf m.log).length) = alarmed := by
    simp only [State.mainStep, idle, pending, if_true, alarmed]
  have second : alarmed.mainStep (cloud (handedOf alarmed.log).length) = cleared := rfl
  have called : calledOf cleared.log = calledOf m.log := by
    simp [cleared, State.note, calledOf, Event.called?, List.filterMap_cons]
  have handed : handedOf cleared.log = handedOf m.log := by
    simp [cleared, State.note, handedOf, Event.handed?, List.filterMap_cons]
  rw [State.sendAggregatedData, runMain_on first running rfl, runMain_on second running rfl,
    Drained, ← called, ← handed]
  exact drain_cases ⟨stored.books, rfl, running, enabled⟩ rfl (Nat.le_refl _)

/-- **An alarm delivers what was recorded exactly when no text is stored** and the cloud library
accepts the GPS fixes. -/
theorem delivers_iff {ok : State → Act → Bool} (run : Reachable State.step State.Init ok m)
    (idle : m.pc = .idle) (pending : m.alarmPending = true) (running : m.halted = false)
    (enabled : m.sendDataEnable = true) :
    Delivers cloud m ↔
      (∀ r ∈ queue m.log, r.isText = false) ∧
        ∀ i < ((queue m.log).filter Record.isGps).length,
          cloud ((handedOf m.log).length + i) = 0 := by
  have stored := reachable_stored run
  have texts := filterMap_cloudData_iff stored.holds
  have drained : Drained cloud m.aggregator.contents m (m.sendAggregatedData cloud) :=
    alarm_drains stored idle pending running enabled
  rcases drained with
    ⟨returned, done, empty, calls, accepted⟩ | ⟨halted, i, bound, failed⟩
  · constructor
    · rintro ⟨_, _, delivered, _⟩
      have noText := texts.mp (List.append_cancel_left (calls.symm.trans delivered))
      refine ⟨noText, ?_⟩
      rw [← length_intended noText, ← texts.mpr noText]
      exact accepted
    · rintro ⟨noText, _⟩
      exact ⟨returned, done, texts.mpr noText ▸ calls, empty⟩
  · constructor
    · rintro ⟨returned, _⟩
      rw [halted] at returned
      cases returned
    · rintro ⟨noText, accepted⟩
      rw [texts.mpr noText, length_intended noText] at bound
      exact absurd (accepted i bound) failed

/-- A GPS fix that is delivered. -/
theorem delivers_iff_fix :
    ∃ m, Reachable State.step State.Init unguarded m ∧ (queue m.log).length = 1 ∧
      (Delivers (fun _ => 0) m ↔
        (∀ r ∈ queue m.log, r.isText = false) ∧
          ∀ i < ((queue m.log).filter Record.isGps).length,
            (fun _ => (0 : Int)) ((handedOf m.log).length + i) = 0) := by
  have found : (exec State.step unguarded State.start
      [.cloud (.ready 0 0), .gpsHandler (.nmeaFix ⟨[36, 71], by decide⟩) 0 (some 1),
        .alarm]).any
      (fun m => m.pc.isIdle && m.alarmPending && !m.halted && m.sendDataEnable &&
        (queue m.log).length == 1) = true := by
    decide +kernel
  obtain ⟨m, run, holds⟩ := exists_reachable_of_exec State.start_init found
  simp only [Bool.and_eq_true, Bool.not_eq_true', beq_iff_eq] at holds
  obtain ⟨⟨⟨⟨idle, pending⟩, running⟩, enabled⟩, one⟩ := holds
  exact ⟨m, run, one, delivers_iff run (isIdle_iff.mp idle) pending running enabled⟩

/-- A button press, sent as `Pres`. -/
theorem press_is_cut :
    ¬ ∀ (cloud : Nat → Int) (m : State), Reachable State.step State.Init unguarded m →
      m.pc = .idle → m.alarmPending = true → m.halted = false → m.sendDataEnable = true →
      Delivers cloud m := by
  intro delivers
  have found : (exec State.step unguarded State.start
      [.cloud (.ready 0 0), .onReceivedButton [1] (fun _ => 0) (some 1)]).any
      (fun m => m.pc.isIdle && m.alarmPending && !m.halted && m.sendDataEnable &&
        (calledOf (m.sendAggregatedData fun _ => 0).log !=
          calledOf m.log ++ (queue m.log).filterMap Record.intended)) = true := by
    decide +kernel
  obtain ⟨m, run, holds⟩ := exists_reachable_of_exec State.start_init found
  simp only [Bool.and_eq_true, Bool.not_eq_true', bne_iff_ne, ne_eq] at holds
  obtain ⟨⟨⟨⟨idle, pending⟩, running⟩, enabled⟩, cut⟩ := holds
  exact cut (delivers _ m run (isIdle_iff.mp idle) pending running enabled).2.2.1

end NcsExp.Gateway
