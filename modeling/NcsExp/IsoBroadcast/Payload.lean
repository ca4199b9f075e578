/-
# NcsExp.IsoBroadcast.Payload -- the pattern that the ISO broadcaster sends

`test_run_broadcaster` runs a session: it may ask for settings, creates the BIG, and
starts a timer that sends the first `sdu` bytes of `iso_data` on each channel, until `q`
is pressed.  The first session that gets so far writes the pattern to `iso_data`, for the
SDU size of its own.

* `sdus_patterned`: every SDU sent carries the pattern, in the runs in which the timer runs
  only with an SDU size that the first session covers.
* `larger_sdu_breaks`: otherwise the next timer run sends an SDU that does not.
-/
import NcsExp.IsoBroadcast.Settings
import NcsExp.Theory.Memory
import NcsExp.Theory.Runs

namespace NcsExp.IsoBroadcast

open NcsExp.Theory

set_option autoImplicit false

/-! ## The code -/

/-- A buffer given to `bt_iso_chan_send`, and `iso_tx_qos.sdu` then. -/
structure Sdu where
  chan : Nat
  payload : List UInt8
  sdu : Nat

structure Broadcaster where
  settings : Settings
  isoData : Memory UInt8
  dataInitialized : Bool
  /-- Of type `uint32_t`. -/
  isoSendCount : Nat
  /-- Whether a session waits for `q`. -/
  running : Bool
  sent : List Sdu
  /-- The SDU size of the session that wrote the pattern; 0 before. -/
  patterned : Nat

/-- The loop over `iso_data`, lines 537-539. -/
def initData : Nat → Memory UInt8 → Memory UInt8
  | 0, isoData => isoData
  | i + 1, isoData => (initData i isoData).store i [i.toUInt8]

namespace Broadcaster

def sdu (m : Broadcaster) : Nat := m.settings.isoTxQos.sdu.toNat

/-- `bt_iso_chan_send` with a buffer of the first `sdu` bytes, lines 376-378. -/
def send (m : Broadcaster) (i : Nat) : Broadcaster :=
  { m with sent := m.sent ++ [⟨i, m.isoData.load 0 m.sdu, m.sdu⟩] }

/-- The loop of `iso_timer_timeout` from channel `i` on; `rets i` is what the call of
`bt_iso_chan_send` returns. -/
def sendFrom (rets : Nat → Int) : Nat → Nat → Broadcaster → Broadcaster
  | 0, _, m => m
  | n + 1, i, m =>
      let m := m.send i
      if rets i < 0 then m
      else sendFrom rets n (i + 1) { m with isoSendCount := (m.isoSendCount + 1) % 2 ^ 32 }

/-- `iso_timer_timeout`, lines 356-390. -/
def isoTimerTimeout (m : Broadcaster) (rets : Nat → Int) : Broadcaster :=
  sendFrom rets m.settings.bigCreateParam.numBis.toNat 0 m

/-- `test_run_broadcaster` behind `create_big`, lines 533-545. -/
def begin (m : Broadcaster) : Broadcaster :=
  let m := { m with isoSendCount := 0, running := true }
  if !m.dataInitialized then
    { m with isoData := initData m.sdu m.isoData, dataInitialized := true, patterned := m.sdu }
  else m

/-- `create_big` returns `err`, lines 527-531. -/
def create (m : Broadcaster) (err : Int) : Broadcaster := if err ≠ 0 then m else m.begin

/-- `test_run_broadcaster` up to its loop, lines 495-545; with `some input`, settings are asked
for.  `none` as long as it waits for input. -/
def testRun (cfg : Config) (m : Broadcaster) (input : Option (List UInt8)) (createErr : Int) :
    Option Broadcaster :=
  match input with
  | none => some (m.create createErr)
  | some input =>
      (parseArgs cfg m.settings input).map fun p =>
        let m := { m with settings := p.settings }
        if p.ret ≠ 0 then m else m.create createErr

end Broadcaster

/-! ## Sessions -/

inductive Act
  | testRun (input : Option (List UInt8)) (createErr : Int)
  | timeout (rets : Nat → Int)
  | quit

namespace Broadcaster

def step (cfg : Config) (m : Broadcaster) : Act → Option Broadcaster
  | .testRun input createErr => if m.running then none else m.testRun cfg input createErr
  | .timeout rets => if m.running then some (m.isoTimerTimeout rets) else none
  | .quit => if m.running then some { m with running := false } else none

/-- When the program starts. -/
structure Init (cfg : Config) (m : Broadcaster) : Prop where
  settings : m.settings = .initial cfg
  isoData : m.isoData = fun _ => 0
  dataInitialized : m.dataInitialized = false
  running : m.running = false
  sent : m.sent = []
  patterned : m.patterned = 0

/-- The pattern reaches up to the SDU size; beyond it there are zeros, and one of them is as the
pattern would have it if its index is a multiple of 256. -/
def covered (m : Broadcaster) : Bool :=
  decide (m.sdu ≤ m.patterned) || (m.sdu == m.patterned + 1 && m.patterned % 256 == 0)

/-- The timer runs only with an SDU size that is covered. -/
def coveredTimeouts (m : Broadcaster) : Act → Bool
  | .timeout _ => m.covered
  | _ => true

end Broadcaster

/-! ## The pattern -/

/-- An SDU has the size in force, and byte `i` of it is `i` modulo 256. -/
def Patterned (s : Sdu) : Prop :=
  s.payload.length = s.sdu ∧ ∀ i < s.sdu, s.payload[i]? = some i.toUInt8

theorem initData_apply (n : Nat) (isoData : Memory UInt8) (i : Nat) :
    initData n isoData i = if i < n then i.toUInt8 else isoData i := by
  induction n with
  | zero => rfl
  | succ n ih =>
      rw [initData, Memory.store_one, ih]
      by_cases last : i = n
      · rw [if_pos last, if_pos (by omega), last]
      · rw [if_neg last]
        by_cases below : i < n
        · rw [if_pos below, if_pos (by omega)]
        · rw [if_neg below, if_neg (by omega)]

/-- What is in `iso_data`. -/
structure Filled (m : Broadcaster) : Prop where
  data : ∀ i, m.isoData i = if i < m.patterned then i.toUInt8 else 0
  fresh : m.dataInitialized = false → m.patterned = 0
  started : m.running = true → m.dataInitialized = true

variable {cfg : Config} {m t : Broadcaster}

theorem toUInt8_eq_zero {i : Nat} : i.toUInt8 = 0 ↔ i % 256 = 0 := by
  rw [← UInt8.toNat_inj]
  simp

/-- The SDU size is covered exactly when what is sent is the pattern. -/
theorem covered_iff (filled : Filled m) :
    m.covered = true ↔ ∀ i < m.sdu, m.isoData i = i.toUInt8 := by
  rw [Broadcaster.covered, Bool.or_eq_true, Bool.and_eq_true, decide_eq_true_iff, beq_iff_eq,
    beq_iff_eq]
  constructor
  · intro covered i bound
    rw [filled.data]
    by_cases below : i < m.patterned
    · rw [if_pos below]
    · rw [if_neg below]
      refine (toUInt8_eq_zero.mpr ?_).symm
      have last : i = m.patterned := by omega
      rw [last]
      omega
  · intro all
    by_cases short : m.sdu ≤ m.patterned
    · exact Or.inl short
    · have zero (i : Nat) (above : m.patterned ≤ i) (bound : i < m.sdu) : i % 256 = 0 := by
        have same := all i bound
        rw [filled.data, if_neg (by omega)] at same
        exact toUInt8_eq_zero.mp same.symm
      have first := zero m.patterned (by omega) (by omega)
      refine Or.inr ⟨?_, first⟩
      by_contra longer
      have second := zero (m.patterned + 1) (by omega) (by omega)
      omega

theorem patterned_send (i : Nat) :
    Patterned ⟨i, m.isoData.load 0 m.sdu, m.sdu⟩ ↔ ∀ i < m.sdu, m.isoData i = i.toUInt8 := by
  constructor
  · rintro ⟨_, bytes⟩ i bound
    have byte := bytes i bound
    simpa [Memory.load, bound] using byte
  · intro all
    refine ⟨Memory.length_load _ 0 _, fun i bound => ?_⟩
    simpa [Memory.load, bound] using all i bound

/-! ## A run of the timer -/

/-- All that a run of the timer does. -/
theorem sendFrom_cases (rets : Nat → Int) (n i : Nat) (m : Broadcaster) :
    ∃ count new, Broadcaster.sendFrom rets n i m =
        { m with isoSendCount := count, sent := m.sent ++ new } ∧
      (∀ s ∈ new, ∃ chan, s = ⟨chan, m.isoData.load 0 m.sdu, m.sdu⟩) ∧ (0 < n → new ≠ []) := by
  induction n generalizing i m with
  | zero =>
      refine ⟨m.isoSendCount, [], ?_, ?_, ?_⟩
      · rw [Broadcaster.sendFrom, List.append_nil]
      · intro s member
        cases member
      · intro positive
        exact absurd positive (Nat.lt_irrefl 0)
  | succ n ih =>
      rw [Broadcaster.sendFrom]
      by_cases failed : rets i < 0
      · refine ⟨m.isoSendCount, [⟨i, m.isoData.load 0 m.sdu, m.sdu⟩], if_pos failed, ?_, ?_⟩
        · intro s member
          exact ⟨i, List.mem_singleton.mp member⟩
        · intro _ none
          cases none
      · obtain ⟨count, new, run, rest, _⟩ :=
          ih (i + 1) { m.send i with isoSendCount := (m.isoSendCount + 1) % 2 ^ 32 }
        refine ⟨count, ⟨i, m.isoData.load 0 m.sdu, m.sdu⟩ :: new, ?_, ?_, ?_⟩
        · refine ((if_neg failed).trans run).trans ?_
          simp only [Broadcaster.send, List.append_assoc, List.cons_append, List.nil_append]
        · intro s member
          rcases List.mem_cons.mp member with first | later
          · exact ⟨i, first⟩
          · exact rest s later
        · intro _ none
          cases none

/-! ## Sessions -/

theorem Filled.begin (filled : Filled m) : Filled m.begin := by
  rw [Broadcaster.begin]
  cases before : m.dataInitialized with
  | true =>
      refine ⟨filled.data, ?_, fun _ => rfl⟩
      intro fresh
      cases fresh
  | false =>
      have zero := filled.fresh before
      refine ⟨?_, ?_, fun _ => rfl⟩
      · intro i
        show initData m.sdu m.isoData i = if i < m.sdu then i.toUInt8 else 0
        rw [initData_apply, filled.data, zero, if_neg (Nat.not_lt_zero i)]
      · intro fresh
        cases fresh

theorem Filled.create (filled : Filled m) (err : Int) : Filled (m.create err) := by
  rw [Broadcaster.create]
  split
  · exact filled
  · exact filled.begin

/-- The settings do not matter. -/
theorem Filled.settings (filled : Filled m) (settings : Settings) :
    Filled { m with settings := settings } :=
  ⟨filled.data, filled.fresh, filled.started⟩

theorem sent_create (m : Broadcaster) (err : Int) : (m.create err).sent = m.sent := by
  rw [Broadcaster.create, Broadcaster.begin]
  split
  · rfl
  · dsimp only
    split <;> rfl

/-- A session that starts, or fails to. -/
theorem testRun_cases {input : Option (List UInt8)} {err : Int} (filled : Filled m)
    (taken : m.testRun cfg input err = some t) : Filled t ∧ t.sent = m.sent := by
  cases input with
  | none =>
      cases taken
      exact ⟨filled.create err, sent_create m err⟩
  | some input =>
      obtain ⟨p, _, same⟩ := Option.map_eq_some_iff.mp taken
      cases same
      split
      · exact ⟨filled.settings p.settings, rfl⟩
      · exact ⟨(filled.settings p.settings).create err, sent_create _ err⟩

/-- The step lemma: `iso_data` stays filled, and only the timer sends. -/
theorem step_cases {a : Act} (filled : Filled m) (taken : m.step cfg a = some t) :
    Filled t ∧
      (t.sent = m.sent ∨
        ∃ rets new, a = .timeout rets ∧ t.sent = m.sent ++ new ∧
          ∀ s ∈ new, ∃ chan, s = ⟨chan, m.isoData.load 0 m.sdu, m.sdu⟩) := by
  cases a with
  | testRun input err =>
      obtain ⟨_, taken⟩ := Option.ite_none_left_eq_some.mp taken
      exact (testRun_cases filled taken).imp id Or.inl
  | timeout rets =>
      obtain ⟨_, same⟩ := Option.ite_none_right_eq_some.mp taken
      cases same
      obtain ⟨count, new, run, sdus, _⟩ :=
        sendFrom_cases rets m.settings.bigCreateParam.numBis.toNat 0 m
      rw [Broadcaster.isoTimerTimeout, run]
      exact ⟨⟨filled.data, filled.fresh, filled.started⟩, Or.inr ⟨rets, new, rfl, rfl, sdus⟩⟩
  | quit =>
      obtain ⟨_, same⟩ := Option.ite_none_right_eq_some.mp taken
      cases same
      refine ⟨⟨filled.data, filled.fresh, ?_⟩, Or.inl rfl⟩
      intro running
      cases running

theorem reachable_filled {ok : Broadcaster → Act → Bool}
    (run : Reachable (Broadcaster.step cfg) (Broadcaster.Init cfg) ok m) : Filled m := by
  apply run.invariant
  · intro m init
    refine ⟨?_, fun _ => init.patterned, ?_⟩
    · intro i
      rw [init.isoData, init.patterned, if_neg (Nat.not_lt_zero i)]
    · intro running
      exact absurd (running.symm.trans init.running) (by decide)
  · exact fun _ _ _ inv _ taken => (step_cases inv taken).1

/-- **Every SDU carries the pattern**, where the timer runs only with a covered size. -/
theorem sdus_patterned
    (run : Reachable (Broadcaster.step cfg) (Broadcaster.Init cfg) Broadcaster.coveredTimeouts m) :
    ∀ s ∈ m.sent, Patterned s := by
  apply run.strengthen (Q := Filled)
  · exact fun _ before => reachable_filled before
  · intro m init s member
    rw [init.sent] at member
    cases member
  · intro m a t filled inv covered taken
    rcases (step_cases filled taken).2 with same | ⟨rets, new, rfl, sent, sdus⟩
    · rw [same]
      exact inv
    · rw [sent]
      intro s member
      rcases List.mem_append.mp member with before | now
      · exact inv s before
      · obtain ⟨chan, rfl⟩ := sdus s now
        exact (patterned_send chan).mpr ((covered_iff filled).mp covered)

/-- **Any other run of the timer sends an SDU without it.** -/
theorem larger_sdu_breaks {rets : Nat → Int} {ok : Broadcaster → Act → Bool}
    (run : Reachable (Broadcaster.step cfg) (Broadcaster.Init cfg) ok m)
    (longer : m.covered = false) (someBis : 0 < m.settings.bigCreateParam.numBis.toNat)
    (taken : m.step cfg (.timeout rets) = some t) : ∃ s ∈ t.sent, ¬ Patterned s := by
  obtain ⟨_, same⟩ := Option.ite_none_right_eq_some.mp taken
  obtain ⟨count, new, timer, sdus, nonempty⟩ :=
    sendFrom_cases rets m.settings.bigCreateParam.numBis.toNat 0 m
  obtain ⟨s, member⟩ := List.exists_mem_of_ne_nil new (nonempty someBis)
  have sent : t.sent = m.sent ++ new := by
    rw [← Option.some.inj same, Broadcaster.isoTimerTimeout, timer]
  refine ⟨s, sent ▸ List.mem_append_right _ member, ?_⟩
  obtain ⟨chan, rfl⟩ := sdus s member
  intro patterned
  have covered := (covered_iff (reachable_filled run)).mpr ((patterned_send chan).mp patterned)
  exact absurd (covered.symm.trans longer) (by decide)

/-! ## Two sessions -/

/-- The state in which the program starts. -/
def Broadcaster.initial (cfg : Config) : Broadcaster where
  settings := .initial cfg
  isoData := fun _ => 0
  dataInitialized := false
  isoSendCount := 0
  running := false
  sent := []
  patterned := 0

theorem Broadcaster.initial_init (cfg : Config) : (initial cfg).Init cfg :=
  ⟨rfl, rfl, rfl, rfl, rfl, rfl⟩

/-- The eight lines of which only the SDU size is not empty: one character. -/
def sduLines (c : UInt8) : List UInt8 := [10, 10, 10, 10, c, 10, 10, 10, 10]

/-- SDUs of 3 bytes, then of 2. -/
theorem sdus_patterned_smaller :
    ∃ m, Reachable (Broadcaster.step .shipped) (Broadcaster.Init .shipped)
        Broadcaster.coveredTimeouts m ∧
      m.sent.map Sdu.sdu = [3, 2] ∧ ∀ s ∈ m.sent, Patterned s := by
  have found : (exec (Broadcaster.step .shipped) Broadcaster.coveredTimeouts (.initial .shipped)
      [.testRun (some (sduLines 51)) 0, .timeout fun _ => 0, .quit,
        .testRun (some (sduLines 50)) 0, .timeout fun _ => 0]).any
      (fun m => m.sent.map Sdu.sdu == [3, 2]) = true := by
    decide +kernel
  obtain ⟨m, run, sizes⟩ := exists_reachable_of_exec (Broadcaster.initial_init _) found
  exact ⟨m, run, beq_iff_eq.mp sizes, sdus_patterned run⟩

/-- SDUs of 2 bytes, then of 4: the last two bytes are zero. -/
theorem larger_second_session_breaks :
    ¬ ∀ (cfg : Config) (m : Broadcaster),
      Reachable (Broadcaster.step cfg) (Broadcaster.Init cfg) unguarded m →
      ∀ s ∈ m.sent, Patterned s := by
  intro always
  have found : (exec (Broadcaster.step .shipped) unguarded (.initial .shipped)
      [.testRun (some (sduLines 50)) 0, .timeout fun _ => 0, .quit,
        .testRun (some (sduLines 52)) 0, .timeout fun _ => 0]).any
      (fun m => m.sent.any fun s => s.sdu == 4 && s.payload == [0, 1, 0, 0]) = true := by
    decide +kernel
  obtain ⟨m, run, some⟩ := exists_reachable_of_exec (Broadcaster.initial_init _) found
  obtain ⟨s, member, holds⟩ := List.any_eq_true.mp some
  rw [Bool.and_eq_true, beq_iff_eq, beq_iff_eq] at holds
  have byte := (always .shipped m run s member).2 2 (by omega)
  rw [holds.2] at byte
  exact absurd byte (by decide)

end NcsExp.IsoBroadcast
