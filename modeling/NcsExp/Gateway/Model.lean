/-
# NcsExp.Gateway.Model -- notifications, the alarm, the cloud link and the main loop

Three callbacks put sensor data in the aggregator (`ble.c`, `gps_handler` of `main.c`).
An alarm makes the main loop take all of it out and send it (`alarm.c`), if the cloud
link is up (`sensor_data_send` and `cloud_event_handler` of `main.c`).

* The main loop runs in small steps, between which anything else may happen.  The
  callbacks run to completion: the main thread does not preempt them.
* `Record` is what a callback was told; `queue` is what the aggregator should hold of it
  by the log.  `reachable_stored`: it does, in the layout of `struct sensor_data`.
* The error handler does not return: the run ends there.
-/
import NcsExp.Gateway.Aggregator

namespace NcsExp.Gateway

open NcsExp.Theory

set_option autoImplicit false

/-! ## Data -/

/-- The characters of a string literal. -/
def chars (s : String) : List UInt8 := s.toList.map fun c => c.toNat.toUInt8

def orientationStrings : List (List UInt8) :=
  [chars "LEFT", chars "NORMAL", chars "RIGHT", chars "UPSIDE_DOWN"]

def buttonStrings : List (List UInt8) := [chars "Release", chars "Press"]

/-- `enum nrf_cloud_sensor`, those of it that are sent. -/
inductive NrfCloudSensor
  | gps
  | flip
  | button
  deriving DecidableEq

/-- `struct nrf_cloud_sensor_data`, with the bytes that its pointer and length denote. -/
structure NrfCloudSensorData where
  type : NrfCloudSensor
  data : List UInt8
  tag : UInt32
  deriving DecidableEq

/-- `struct gps_nmea`: the first `len` characters of its buffer. -/
structure GpsNmea where
  buf : List UInt8
  fits : buf.length ≤ gpsNmeaSentenceMaxLength

inductive GpsEvent
  | searchStarted
  | searchStopped
  | searchTimeout
  | pvtFix
  | nmeaFix (nmea : GpsNmea)
  | other

/-- `struct nrf_cloud_evt`.  `userAssociated` comes with what `nrf_cloud_disconnect` returns,
`ready` with what the two calls of `nrf_cloud_sensor_attach` do. -/
inductive CloudEvt
  | transportConnected
  | userAssociationRequest
  | userAssociated (disconnect : Int)
  | ready (attachFlip attachGps : Int)
  | sensorAttached
  | sensorDataAck
  | transportDisconnected
  | error (status : Int)
  | other

/-- What a callback was told. -/
inductive Record
  | orientation (value : UInt8)
  | button (value : UInt8)
  | gps (tag : UInt32) (nmea : GpsNmea)

/-- Where the main loop is: outside of `send_aggregated_data`; behind its test of
`alarm_pending`; at the head of its loop; with an entry; in the call of the cloud library. -/
inductive Pc
  | idle
  | alarmed
  | draining
  | switching (aggregatorData : SensorData)
  | sending (aggregatorData : SensorData) (cloudData : NrfCloudSensorData)

inductive Event
  /-- `aggregator_put` returned 0. -/
  | stored (r : Record)
  /-- `alarm_pending` was cleared, and what `send_data_enable` was. -/
  | alarmTaken (enabled : Bool)
  /-- `aggregator_get` returned an entry to `send_aggregated_data`. -/
  | taken (d : SensorData)
  /-- It was dropped for its format. -/
  | rejected (d : SensorData)
  /-- `sensor_data_send` was called. -/
  | called (c : NrfCloudSensorData)
  /-- `nrf_cloud_sensor_data_stream`, or `nrf_cloud_sensor_data_send`, was called. -/
  | handed (d : SensorData) (stream : Bool) (c : NrfCloudSensorData)

structure State where
  aggregator : Aggregator
  alarmPending : Bool
  sendDataEnable : Bool
  associationRequested : Bool
  /-- `gps_cloud_data.tag`. -/
  tag : UInt32
  pc : Pc
  halted : Bool
  log : List Event

namespace State

def note (m : State) (e : Event) : State := { m with log := m.log ++ [e] }

end State

/-! ## Little-endian words -/

/-- The four bytes of a `uint32_t`. -/
def wordBytes (w : UInt32) : List UInt8 :=
  [w.toNat.toUInt8, (w.toNat / 2 ^ 8).toUInt8, (w.toNat / 2 ^ 16).toUInt8,
    (w.toNat / 2 ^ 24).toUInt8]

/-- The word that four bytes are. -/
def wordValue (bytes : List UInt8) : UInt32 :=
  (bytes.foldr (fun (b : UInt8) n => b.toNat + 2 ^ 8 * n) 0).toUInt32

theorem wordValue_wordBytes (w : UInt32) : wordValue (wordBytes w) = w := by
  have bound : w.toNat < 2 ^ 32 := w.toNat_lt
  have value : (wordBytes w).foldr (fun (b : UInt8) n => b.toNat + 2 ^ 8 * n) 0 = w.toNat := by
    simp only [wordBytes, List.foldr_cons, List.foldr_nil, Nat.toUInt8_eq, UInt8.toNat_ofNat']
    omega
  rw [wordValue, value]
  exact UInt32.ofNat_toNat

/-! ## The callbacks -/

/-- `(button_state & SWITCH_2)`; `SWITCH_2` is `BIT(3)`. -/
def switch2 (buttonState : UInt32) : Bool := (buttonState &&& ((1 : UInt32) <<< 3)) != 0

/-- `in_data` of `on_received` and of `on_received_button`; `stack` is what is in its memory. -/
def oneByte (type : SensorDataType) (stack : Memory UInt8) (value : UInt8) : SensorData where
  length := 1
  type := type
  data := stack.store 0 [value]

/-- `in_data` of `gps_handler`. -/
def gpsData (tag : UInt32) (nmea : GpsNmea) : SensorData where
  length := nmea.buf.length.toUInt8
  type := .gpsPosition
  data := (Memory.store (fun _ => 0) 0 (wordBytes tag)).store 4 nmea.buf

/-- `gps_cloud_data.tag++`, and 1 in place of 0. -/
def nextTag (tag : UInt32) : UInt32 := if tag + 1 = 0 then 1 else tag + 1

namespace State

/-- A call of `aggregator_put` with what was recorded as `r`. -/
def put (m : State) (r : Record) (inData : SensorData) (alloc : Option Ptr) : State :=
  let res := aggregatorPut m.aggregator inData alloc
  let m := { m with aggregator := res.1 }
  if res.2 = 0 then m.note (.stored r) else m

/-- `alarm`, line 22 of `alarm.c`. -/
def alarm (m : State) : State := { m with alarmPending := true }

/-- `on_received` and `on_received_button`, lines 55-105 of `ble.c`. -/
def onNotified (type : SensorDataType) (record : UInt8 → Record) (trigger : UInt8) (m : State)
    (data : List UInt8) (stack : Memory UInt8) (alloc : Option Ptr) : State :=
  match data with
  | [] => m
  | value :: _ =>
      let m := m.put (record value) (oneByte type stack value) alloc
      if value = trigger then m.alarm else m

def onReceived : State → List UInt8 → Memory UInt8 → Option Ptr → State :=
  onNotified .thingyOrientation .orientation 3

def onReceivedButton : State → List UInt8 → Memory UInt8 → Option Ptr → State :=
  onNotified .thingyButton .button 1

/-- `gps_handler`, lines 166-217 of `main.c`. -/
def gpsHandler (m : State) (evt : GpsEvent) (buttonState : UInt32) (alloc : Option Ptr) : State :=
  match evt with
  | .nmeaFix nmea =>
      if switch2 buttonState || !m.sendDataEnable then m
      else
        let tag := nextTag m.tag
        { m with tag := tag }.put (.gps tag nmea) (gpsData tag nmea) alloc
  | _ => m

/-! ## The cloud link -/

/-- `nrf_cloud_error_handler`: it does not return. -/
def nrfCloudErrorHandler (m : State) : State := { m with halted := true }

/-- `on_cloud_evt_user_associated`, lines 293-316 of `main.c`. -/
def onCloudEvtUserAssociated (m : State) (disconnect : Int) : State :=
  if m.associationRequested then
    let m := { m with associationRequested := false }
    if disconnect = 0 then m else m.nrfCloudErrorHandler
  else m

/-- `cloud_event_handler`, lines 319-393 of `main.c`. -/
def cloudEventHandler (m : State) : CloudEvt → State
  | .transportConnected => m
  | .userAssociationRequest => { m with associationRequested := true }
  | .userAssociated disconnect => m.onCloudEvtUserAssociated disconnect
  | .ready attachFlip attachGps =>
      if attachFlip ≠ 0 then m.nrfCloudErrorHandler
      else if attachGps ≠ 0 then m.nrfCloudErrorHandler
      else { m with sendDataEnable := true }
  | .sensorAttached => m
  | .sensorDataAck => m
  | .transportDisconnected => { m with sendDataEnable := false }
  | .error _ => { m with sendDataEnable := false }.nrfCloudErrorHandler
  | .other => m

end State

/-! ## The main loop -/

/-- What is sent for one of `strings`: all of it but the last character. -/
def stringData (type : NrfCloudSensor) (strings : List (List UInt8)) (d : SensorData) :
    Option NrfCloudSensorData :=
  if d.length ≠ 1 ∨ strings.length ≤ (d.data 0).toNat then none
  else
    let string := strings.getD (d.data 0).toNat []
    some ⟨type, string.take (string.length - 1), 0⟩

/-- The `switch` of `send_aggregated_data`, lines 55-102 of `alarm.c`: what is given to
`sensor_data_send`, unless the entry is dropped. -/
def cloudData (d : SensorData) : Option NrfCloudSensorData :=
  match d.type with
  | .thingyOrientation => stringData .flip orientationStrings d
  | .gpsPosition => some ⟨.gps, d.data.load 4 d.length.toNat, wordValue (d.data.load 0 4)⟩
  | .thingyButton => stringData .button buttonStrings d
  | .unsupported _ => none

namespace State

/-- The call of `sensor_data_send`, lines 264-270 of `main.c`. -/
def sensorDataSend (m : State) (d : SensorData) (c : NrfCloudSensorData) : State :=
  let m := m.note (.called c)
  if !m.sendDataEnable then { m with pc := .draining } else { m with pc := .sending d c }

/-- The rest of it, lines 272-282; `err` is what the cloud library returns. -/
def cloudCall (m : State) (d : SensorData) (c : NrfCloudSensorData) (err : Int) : State :=
  let m := { m.note (.handed d (c.type = .flip) c) with pc := .draining }
  if err ≠ 0 then m.nrfCloudErrorHandler else m

/-- A step of `send_aggregated_data`, lines 44-103 of `alarm.c`. -/
def mainStep (m : State) (err : Int) : State :=
  match m.pc with
  | .idle => if m.alarmPending then { m with pc := .alarmed } else m
  | .alarmed =>
      { m.note (.alarmTaken m.sendDataEnable) with alarmPending := false, pc := .draining }
  | .draining =>
      match aggregatorGet m.aggregator true with
      | (g, _, some d) => { m.note (.taken d) with aggregator := g, pc := .switching d }
      | (g, _, none) => { m with aggregator := g, pc := .idle }
  | .switching d =>
      match cloudData d with
      | none => { m.note (.rejected d) with pc := .draining }
      | some c => m.sensorDataSend d c
  | .sending d c => m.cloudCall d c err

end State

/-! ## Runs -/

inductive Act
  | onReceived (data : List UInt8) (stack : Memory UInt8) (alloc : Option Ptr)
  | onReceivedButton (data : List UInt8) (stack : Memory UInt8) (alloc : Option Ptr)
  | gpsHandler (evt : GpsEvent) (buttonState : UInt32) (alloc : Option Ptr)
  | alarm
  | cloud (evt : CloudEvt)
  | main (err : Int)

namespace State

def act (m : State) : Act → Option State
  | .onReceived data stack alloc =>
      if m.aggregator.mayReturn alloc then some (m.onReceived data stack alloc) else none
  | .onReceivedButton data stack alloc =>
      if m.aggregator.mayReturn alloc then some (m.onReceivedButton data stack alloc) else none
  | .gpsHandler evt buttonState alloc =>
      if m.aggregator.mayReturn alloc then some (m.gpsHandler evt buttonState alloc) else none
  | .alarm => some m.alarm
  | .cloud evt => some (m.cloudEventHandler evt)
  | .main err => some (m.mainStep err)

def step (m : State) (a : Act) : Option State := if m.halted then none else m.act a

/-- When the program starts. -/
structure Init (m : State) : Prop where
  aggregator : m.aggregator.aggregatorFifo = [] ∧ m.aggregator.entryCount = 0 ∧
    m.aggregator.heap = [] ∧ m.aggregator.log = []
  alarm : m.alarmPending = false
  disabled : m.sendDataEnable = false
  association : m.associationRequested = false
  tag : m.tag = 1
  pc : m.pc = .idle
  running : m.halted = false
  log : m.log = []

/-- One such state. -/
def start : State where
  aggregator := ⟨[], 0, fun _ => ⟨0, .thingyButton, fun _ => 0⟩, [], []⟩
  alarmPending := false
  sendDataEnable := false
  associationRequested := false
  tag := 1
  pc := .idle
  halted := false
  log := []

theorem start_init : start.Init :=
  ⟨⟨rfl, rfl, rfl, rfl⟩, rfl, rfl, rfl, rfl, rfl, rfl, rfl⟩

end State

end NcsExp.Gateway
