/-
# NcsExp.Gateway.Records -- the aggregator holds what was recorded

`queue` is the list of records that should be stored, by the log: each one that was
put, less the oldest of a full queue, less those that the main loop took.  In every
reachable state the entries of the aggregator encode exactly these, in order
(`reachable_stored`), whatever was in the memory that a callback builds its entry in.
-/
import NcsExp.Gateway.Model

namespace NcsExp.Gateway

open NcsExp.Theory

set_option autoImplicit false

/-! ## Records and entries -/

/-- The layout of an entry. -/
def Encodes : Record → SensorData → Prop
  | .orientation value, d => d.type = .thingyOrientation ∧ d.length = 1 ∧ d.data 0 = value
  | .button value, d => d.type = .thingyButton ∧ d.length = 1 ∧ d.data 0 = value
  | .gps tag nmea, d =>
      d.type = .gpsPosition ∧ d.length.toNat = nmea.buf.length ∧
        wordValue (d.data.load 0 4) = tag ∧ d.data.load 4 nmea.buf.length = nmea.buf

theorem encodes_orientation (stack : Memory UInt8) (value : UInt8) :
    Encodes (.orientation value) (oneByte .thingyOrientation stack value) :=
  ⟨rfl, rfl, stack.store_one 0 0 value⟩

theorem encodes_button (stack : Memory UInt8) (value : UInt8) :
    Encodes (.button value) (oneByte .thingyButton stack value) :=
  ⟨rfl, rfl, stack.store_one 0 0 value⟩

/-- What `gps_handler` writes is within the array. -/
theorem gpsData_within (tag : UInt32) (nmea : GpsNmea) :
    (wordBytes tag ++ nmea.buf).length ≤ entryMaxSize := by
  have fits := nmea.fits
  rw [List.length_append, entryMaxSize, Nat.add_comm]
  exact Nat.add_le_add_right fits 4

/-- The tag and the sentence do not overlap, and the length fits its byte. -/
theorem encodes_gps (tag : UInt32) (nmea : GpsNmea) :
    Encodes (.gps tag nmea) (gpsData tag nmea) := by
  refine ⟨rfl, ?_, ?_, ?_⟩
  · have fits := nmea.fits
    rw [gpsNmeaSentenceMaxLength] at fits
    simp only [gpsData, Nat.toUInt8_eq, UInt8.toNat_ofNat']
    omega
  · have bytes := Memory.load_store_same (fun _ => 0) 0 (wordBytes tag)
    rw [gpsData, Memory.load_store_below _ _ (Nat.le_refl 4)]
    exact (congrArg wordValue bytes).trans (wordValue_wordBytes tag)
  · exact Memory.load_store_same _ 4 nmea.buf

/-! ## The queue of records -/

def Event.observe (q : List Record) : Event → List Record
  | .stored r => dropOldest fifoMaxElementCount q r
  | .taken _ => q.tail
  | _ => q

/-- The records that the aggregator should hold. -/
def queue (log : List Event) : List Record := present Event.observe [] log

@[simp] theorem queue_snoc (log : List Event) (e : Event) :
    queue (log ++ [e]) = Event.observe (queue log) e :=
  present_snoc

/-! ## What a step does -/

/-- Neither what is stored nor the main loop nor the log changed. -/
structure State.Same (m t : State) : Prop where
  aggregator : t.aggregator = m.aggregator
  pc : t.pc = m.pc
  log : t.log = m.log

/-- The cloud link changes its own flags only. -/
theorem same_cloud (m : State) (evt : CloudEvt) : m.Same (m.cloudEventHandler evt) := by
  cases evt with
  | userAssociated disconnect =>
      rw [State.cloudEventHandler, State.onCloudEvtUserAssociated]
      split
      · dsimp only
        split
        · exact ⟨rfl, rfl, rfl⟩
        · exact ⟨rfl, rfl, rfl⟩
      · exact ⟨rfl, rfl, rfl⟩
  | ready attachFlip attachGps =>
      rw [State.cloudEventHandler]
      split
      · exact ⟨rfl, rfl, rfl⟩
      · split
        · exact ⟨rfl, rfl, rfl⟩
        · exact ⟨rfl, rfl, rfl⟩
  | _ => exact ⟨rfl, rfl, rfl⟩

/-- One entry was put that encodes what was recorded. -/
def State.Puts (m t : State) : Prop :=
  ∃ r d alloc, Encodes r d ∧ m.aggregator.mayReturn alloc = true ∧ (m.put r d alloc).Same t

section Callbacks

variable {m : State} {alloc : Option Ptr}

theorem onNotified_cases {type : SensorDataType} {record : UInt8 → Record}
    (fresh : m.aggregator.mayReturn alloc = true)
    (layout : ∀ stack value, Encodes (record value) (oneByte type stack value)) (trigger : UInt8)
    (data : List UInt8) (stack : Memory UInt8) :
    m.Same (State.onNotified type record trigger m data stack alloc) ∨
      m.Puts (State.onNotified type record trigger m data stack alloc) := by
  cases data with
  | nil => exact Or.inl ⟨rfl, rfl, rfl⟩
  | cons value rest =>
      refine Or.inr ⟨record value, oneByte type stack value, alloc, layout stack value, fresh, ?_⟩
      rw [State.onNotified]
      split
      · exact ⟨rfl, rfl, rfl⟩
      · exact ⟨rfl, rfl, rfl⟩

/-- The tag does not matter to a put. -/
theorem same_put_tag (m : State) (tag : UInt32) (r : Record) (d : SensorData)
    (alloc : Option Ptr) : (m.put r d alloc).Same ({ m with tag := tag }.put r d alloc) := by
  rw [State.put, State.put]
  split
  · exact ⟨rfl, rfl, rfl⟩
  · exact ⟨rfl, rfl, rfl⟩

theorem gpsHandler_cases (fresh : m.aggregator.mayReturn alloc = true) (evt : GpsEvent)
    (buttonState : UInt32) :
    m.Same (m.gpsHandler evt buttonState alloc) ∨ m.Puts (m.gpsHandler evt buttonState alloc) := by
  cases evt with
  | nmeaFix nmea =>
      rw [State.gpsHandler]
      split
      · exact Or.inl ⟨rfl, rfl, rfl⟩
      · exact Or.inr ⟨_, _, alloc, encodes_gps _ nmea, fresh, same_put_tag m _ _ _ alloc⟩
  | _ => exact Or.inl ⟨rfl, rfl, rfl⟩

end Callbacks

/-- A step is one of the main loop, or it puts what was recorded, or it changes neither. -/
theorem step_cases {m t : State} {a : Act} (taken : m.step a = some t) :
    (∃ err, a = .main err ∧ t = m.mainStep err) ∨ m.Same t ∨ m.Puts t := by
  obtain ⟨_, taken⟩ := Option.ite_none_left_eq_some.mp taken
  cases a with
  | onReceived data stack alloc =>
      obtain ⟨fresh, same⟩ := Option.ite_none_right_eq_some.mp taken
      cases same
      exact Or.inr (onNotified_cases fresh encodes_orientation 3 data stack)
  | onReceivedButton data stack alloc =>
      obtain ⟨fresh, same⟩ := Option.ite_none_right_eq_some.mp taken
      cases same
      exact Or.inr (onNotified_cases fresh encodes_button 1 data stack)
  | gpsHandler evt buttonState alloc =>
      obtain ⟨fresh, same⟩ := Option.ite_none_right_eq_some.mp taken
      cases same
      exact Or.inr (gpsHandler_cases fresh evt buttonState)
  | alarm =>
      cases taken
      exact Or.inr (Or.inl ⟨rfl, rfl, rfl⟩)
  | cloud evt =>
      cases taken
      exact Or.inr (Or.inl (same_cloud m evt))
  | main err =>
      cases taken
      exact Or.inl ⟨err, rfl, rfl⟩

/-! ## The invariant -/

structure Stored (m : State) : Prop where
  books : Books m.aggregator
  holds : List.Forall₂ Encodes (queue m.log) m.aggregator.contents

namespace Stored

variable {m t : State} {r : Record} {d : SensorData} {alloc : Option Ptr}

/-- Nothing was put or taken. -/
theorem quiet (inv : Stored m) (aggregator : t.aggregator = m.aggregator)
    (log : queue t.log = queue m.log) : Stored t := by
  refine ⟨?_, ?_⟩
  · rw [aggregator]
    exact inv.books
  · rw [aggregator, log]
    exact inv.holds

theorem put (inv : Stored m) (fresh : m.aggregator.mayReturn alloc = true) (layout : Encodes r d) :
    Stored (m.put r d alloc) := by
  rcases inv.books.put_cases (d := d) fresh with ⟨failed, _⟩ | ⟨g, put, books, contents, _⟩
  · rw [State.put, failed]
    exact inv.quiet rfl rfl
  · rw [State.put, put]
    refine ⟨books, ?_⟩
    show List.Forall₂ Encodes (queue (m.log ++ [Event.stored r])) g.contents
    rw [queue_snoc, contents]
    exact forall₂_dropOldest inv.holds layout _

/-- An entry that is taken is the oldest record. -/
theorem take {g : Aggregator} (inv : Stored m) (books : Books g)
    (oldest : m.aggregator.contents = d :: g.contents) :
    Stored { m.note (.taken d) with aggregator := g, pc := .switching d } := by
  refine ⟨books, ?_⟩
  show List.Forall₂ Encodes (queue (m.log ++ [Event.taken d])) g.contents
  have rest := forall₂_tail inv.holds
  rw [oldest, List.tail_cons] at rest
  rw [queue_snoc]
  exact rest

theorem mainStep (inv : Stored m) (err : Int) : Stored (m.mainStep err) := by
  cases pc : m.pc with
  | idle =>
      simp only [State.mainStep, pc]
      split
      · exact inv.quiet rfl rfl
      · exact inv
  | alarmed =>
      simp only [State.mainStep, pc]
      exact inv.quiet rfl (queue_snoc _ _)
  | draining =>
      rcases inv.books.get_cases with ⟨failed, _⟩ | ⟨g, d, got, books, oldest⟩
      · simp only [State.mainStep, pc, failed]
        exact inv.quiet rfl rfl
      · simp only [State.mainStep, pc, got]
        exact inv.take books oldest
  | switching d =>
      simp only [State.mainStep, pc]
      split
      · exact inv.quiet rfl (queue_snoc _ _)
      · rw [State.sensorDataSend]
        split
        · exact inv.quiet rfl (queue_snoc _ _)
        · exact inv.quiet rfl (queue_snoc _ _)
  | sending d c =>
      simp only [State.mainStep, pc, State.cloudCall]
      split
      · exact inv.quiet rfl (queue_snoc _ _)
      · exact inv.quiet rfl (queue_snoc _ _)

end Stored

/-- The step lemma. -/
theorem stored_step {m t : State} {a : Act} (inv : Stored m) (taken : m.step a = some t) :
    Stored t := by
  rcases step_cases taken with ⟨err, rfl, rfl⟩ | same | ⟨r, d, alloc, layout, fresh, same⟩
  · exact inv.mainStep err
  · exact inv.quiet same.aggregator (congrArg queue same.log)
  · exact (inv.put fresh layout).quiet same.aggregator (congrArg queue same.log)

theorem stored_init {m : State} (init : m.Init) : Stored m := by
  obtain ⟨fifo, count, heap, log⟩ := init.aggregator
  refine ⟨Books.empty fifo count heap log, ?_⟩
  rw [init.log, Aggregator.contents, fifo]
  exact .nil

/-- **The aggregator holds what was recorded.** -/
theorem reachable_stored {ok : State → Act → Bool} {m : State}
    (run : Reachable State.step State.Init ok m) : Stored m := by
  apply run.invariant
  · exact fun _ init => stored_init init
  · exact fun _ _ _ inv _ taken => stored_step inv taken

end NcsExp.Gateway
