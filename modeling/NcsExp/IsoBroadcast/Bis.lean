/-
# NcsExp.IsoBroadcast.Bis -- the channels that the ISO broadcaster counts

`iso_connected` and `iso_disconnected` count the channels that are connected and compare the
count with `num_bis`: the one gives `sem_big_complete`, the other `sem_big_term`, which the
last channel to disconnect never sees, for then the count is 0.

* A run is any number of sessions of `test_run_broadcaster`, each of which may change
  `num_bis`.  Between them, and during them, the host reports the channels of the BIG.
* What was reported is a log; what the log says about the channels (`Channels`) is folded
  from it.
* `bis_accounting_iff`: the count is always right, and the semaphores are given when they
  should exactly when `InOrder` holds of every report.
-/
import NcsExp.IsoBroadcast.Settings
import NcsExp.Theory.History
import NcsExp.Theory.Runs
import NcsExp.Theory.Semaphore
import Mathlib.Algebra.Group.Nat.Defs

namespace NcsExp.IsoBroadcast.Bis

open NcsExp.Theory

set_option autoImplicit false

/-! ## The program -/

/-- What is observed: `parse_args` stores `num_bis`, the BIG is created with so many channels,
a channel is reported and the semaphore is given or not, `test_run_broadcaster` returns. -/
inductive Event
  | changed (numBis : UInt8)
  | created (numBis : UInt8)
  | connected (chan : Nat) (complete : Bool)
  | disconnected (chan : Nat) (term : Bool)
  | returned (err : Int)
  deriving DecidableEq

/-- Where `test_run_broadcaster` stands. -/
inductive Pc
  | idle
  | askSettings
  | createBig
  | waitBigComplete
  | broadcast
  deriving DecidableEq

structure App where
  pc : Pc
  settings : Settings
  connectedBis : UInt8
  semBigComplete : Semaphore 1
  semBigTerm : Semaphore 1
  log : List Event
  deriving DecidableEq

namespace App

def goto (s : App) (pc : Pc) : App := { s with pc }

def note (s : App) (e : Event) : App := { s with log := s.log ++ [e] }

/-- `test_run_broadcaster` returns. -/
def ret (s : App) (err : Int) : App := (s.note (.returned err)).goto .idle

def numBis (s : App) : UInt8 := s.settings.bigCreateParam.numBis

end App

/-- `iso_connected`. -/
def isoConnected (s : App) (chan : Nat) : App :=
  let s := { s with connectedBis := s.connectedBis + 1 }
  if s.connectedBis = s.numBis then
    { s with semBigComplete := s.semBigComplete.give }.note (.connected chan true)
  else s.note (.connected chan false)

/-- `iso_disconnected`. -/
def isoDisconnected (s : App) (chan : Nat) : App :=
  let s := { s with connectedBis := s.connectedBis - 1 }
  if s.connectedBis = s.numBis then
    { s with semBigTerm := s.semBigTerm.give }.note (.disconnected chan true)
  else s.note (.disconnected chan false)

/-- `reset_sems`. -/
def resetSems (s : App) : App := { s with semBigComplete := .empty, semBigTerm := .empty }

/-- Lines 511-527: the settings are kept, or changed to what is typed. -/
def askSettings (cfg : Config) (s : App) : Option (List UInt8) → Option App
  | none => some (s.goto .createBig)
  | some input =>
      (parseArgs cfg s.settings input).map fun p =>
        if p.ret ≠ 0 then s.ret p.ret
        else
          ({ s with settings := p.settings }.note
            (.changed p.settings.bigCreateParam.numBis)).goto .createBig

/-- `create_big` up to the wait: the calls of the host return `err`. -/
def createBig (s : App) (err : Int) : App :=
  if err ≠ 0 then s.ret err else (s.note (.created s.numBis)).goto .waitBigComplete

/-! ## What the log says -/

/-- `num_bis`, and the channels of the BIG: those that have not connected yet, those that are
connected, and those that have disconnected. -/
structure Channels where
  numBis : UInt8
  waiting : List Nat
  up : List Nat
  down : List Nat
  deriving DecidableEq

namespace Channels

def initial (cfg : Config) : Channels := ⟨(Settings.initial cfg).bigCreateParam.numBis, [], [], []⟩

def observe (c : Channels) : Event → Channels
  | .changed numBis => { c with numBis }
  | .created numBis => { c with waiting := List.range numBis.toNat, up := [], down := [] }
  | .connected chan _ => { c with waiting := c.waiting.erase chan, up := c.up ++ [chan] }
  | .disconnected chan _ => { c with up := c.up.erase chan, down := c.down ++ [chan] }
  | .returned _ => c

/-- The channels of the BIG. -/
def total (c : Channels) : Nat := c.waiting.length + c.up.length + c.down.length

end Channels

def channels (cfg : Config) (log : List Event) : Channels :=
  present Channels.observe (.initial cfg) log

/-! ## The machine -/

/-- A step of the thread, with what is typed and what the host returns, or a report of the host. -/
inductive Act
  | start
  | settings (answer : Option (List UInt8))
  | createBig (err : Int)
  | bigComplete
  | quit (err : Int)
  | connected (chan : Nat)
  | disconnected (chan : Nat)
  deriving DecidableEq

/-- One step.  A BIG is created once all channels of the one before have connected and
disconnected; each of its channels connects once and then disconnects once. -/
def step (cfg : Config) (s : App) (a : Act) : Option App :=
  match a with
  | .start => if s.pc = .idle then some ((resetSems s).goto .askSettings) else none
  | .settings answer => if s.pc = .askSettings then askSettings cfg s answer else none
  | .createBig err =>
      let c := channels cfg s.log
      if s.pc = .createBig ∧ (err = 0 → c.waiting = [] ∧ c.up = []) then some (createBig s err)
      else none
  | .bigComplete =>
      if s.pc = .waitBigComplete then
        s.semBigComplete.take.map fun sem => { s with semBigComplete := sem }.goto .broadcast
      else none
  | .quit err => if s.pc = .broadcast then some (s.ret err) else none
  | .connected chan =>
      if chan ∈ (channels cfg s.log).waiting then some (isoConnected s chan) else none
  | .disconnected chan =>
      if chan ∈ (channels cfg s.log).up then some (isoDisconnected s chan) else none

def start (cfg : Config) : App where
  pc := .idle
  settings := .initial cfg
  connectedBis := 0
  semBigComplete := .empty
  semBigTerm := .empty
  log := []

/-! ## The law, and when it holds -/

/-- `sem_big_complete` is given when the last channel of the BIG connects, and `sem_big_term` when
the last connected channel disconnects. -/
def Accounted (cfg : Config) (past : List Event) : Event → Prop
  | .connected chan complete => complete = true ↔ (channels cfg past).waiting = [chan]
  | .disconnected chan term => term = true ↔ (channels cfg past).up = [chan]
  | _ => True

/-- No channel has disconnected when the last one connects; when a channel disconnects, `num_bis`
is 0, or some other channels stay connected and they are not `num_bis` many. -/
def InOrder (cfg : Config) (past : List Event) : Event → Prop
  | .connected chan _ => (channels cfg past).waiting = [chan] → (channels cfg past).down = []
  | .disconnected chan _ =>
      (channels cfg past).numBis = 0 ∨
        (channels cfg past).up ≠ [chan] ∧
          (channels cfg past).up.length ≠ (channels cfg past).numBis.toNat + 1
  | _ => True

/-- What the callbacks compute. -/
def Compared (cfg : Config) (past : List Event) : Event → Prop
  | .connected chan complete =>
      chan ∈ (channels cfg past).waiting ∧
        (complete = true ↔ (channels cfg past).up.length + 1 = (channels cfg past).total)
  | .disconnected chan term =>
      chan ∈ (channels cfg past).up ∧
        (term = true ↔ (channels cfg past).up.length = (channels cfg past).numBis.toNat + 1)
  | _ => True

variable {cfg : Config} {s t : App} {log past : List Event} {e : Event} {chan : Nat}

theorem eq_singleton_iff {x : Nat} {xs : List Nat} (member : x ∈ xs) :
    xs = [x] ↔ xs.length = 1 := by
  constructor
  · rintro rfl
    rfl
  · intro one
    obtain ⟨y, rfl⟩ := List.length_eq_one_iff.mp one
    rw [List.mem_singleton.mp member]

/-- **One report**: it is accounted for exactly when it is in order. -/
theorem Compared.accounted_iff (compared : Compared cfg past e) :
    Accounted cfg past e ↔ InOrder cfg past e := by
  cases e with
  | connected chan complete =>
      obtain ⟨waits, gives⟩ := compared
      rw [Accounted, InOrder, gives, eq_singleton_iff waits, ← List.length_eq_zero_iff,
        Channels.total]
      have some := List.length_pos_of_mem waits
      omega
  | disconnected chan term =>
      obtain ⟨up, gives⟩ := compared
      rw [Accounted, InOrder, gives, Ne, eq_singleton_iff up, ← UInt8.toNat_inj]
      have some := List.length_pos_of_mem up
      have zero : (0 : UInt8).toNat = 0 := rfl
      omega
  | _ => exact Iff.rfl

/-! ## The invariant -/

/-- Channels connect only while the thread waits for all of them; until then `num_bis` is what the
BIG was created with and the semaphore is not given. -/
def Waits (cfg : Config) (s : App) : Prop :=
  (channels cfg s.log).waiting = [] ∨
    s.pc = .waitBigComplete ∧ s.semBigComplete.count = 0 ∧
      s.numBis.toNat = (channels cfg s.log).total

/-- Nothing has given `sem_big_complete` since `reset_sems`. -/
def Reset (s : App) : Prop :=
  s.pc = .askSettings ∨ s.pc = .createBig → s.semBigComplete.count = 0

structure Inv (cfg : Config) (s : App) : Prop where
  numBis : s.numBis = (channels cfg s.log).numBis
  connected : s.connectedBis.toNat = (channels cfg s.log).up.length
  fits : (channels cfg s.log).total < 2 ^ 8
  waits : Waits cfg s
  reset : Reset s
  moments : Always (Compared cfg) s.log

theorem Reset.of_ne (asks : s.pc ≠ .askSettings) (creates : s.pc ≠ .createBig) : Reset s :=
  fun either => absurd either (not_or.mpr ⟨asks, creates⟩)

@[simp] theorem channels_snoc : channels cfg (log ++ [e]) = (channels cfg log).observe e :=
  present_snoc

theorem Inv.none_waiting (inv : Inv cfg s) (elsewhere : s.pc ≠ .waitBigComplete) :
    (channels cfg s.log).waiting = [] :=
  inv.waits.resolve_right fun waits => elsewhere waits.1

/-- The thread goes on, and neither the log nor what the callbacks use changes. -/
theorem Inv.goes (inv : Inv cfg s) (log : t.log = s.log) (numBis : t.numBis = s.numBis)
    (connected : t.connectedBis = s.connectedBis) (none_ : (channels cfg s.log).waiting = [])
    (reset : Reset t) : Inv cfg t where
  numBis := by rw [numBis, log, inv.numBis]
  connected := by rw [connected, log, inv.connected]
  fits := log ▸ inv.fits
  waits := Or.inl (log ▸ none_)
  reset := reset
  moments := log ▸ inv.moments

/-- The thread returns. -/
theorem Inv.ret (inv : Inv cfg s) (elsewhere : s.pc ≠ .waitBigComplete) (err : Int) :
    Inv cfg (s.ret err) := by
  have same : channels cfg (s.ret err).log = channels cfg s.log := channels_snoc
  refine ⟨?_, ?_, ?_, Or.inl ?_, .of_ne nofun nofun, always_snoc.mpr ⟨inv.moments, trivial⟩⟩
  · rw [same]
    exact inv.numBis
  · rw [same]
    exact inv.connected
  · rw [same]
    exact inv.fits
  · rw [same]
    exact inv.none_waiting elsewhere

theorem Inv.askSettings (inv : Inv cfg s) (here : s.pc = .askSettings)
    {answer : Option (List UInt8)} (asked : askSettings cfg s answer = some t) : Inv cfg t := by
  have elsewhere : s.pc ≠ .waitBigComplete := by
    rw [here]
    decide
  have ungiven := inv.reset (Or.inl here)
  cases answer with
  | none =>
      cases asked
      exact inv.goes rfl rfl rfl (inv.none_waiting elsewhere) fun _ => ungiven
  | some input =>
      obtain ⟨p, -, rfl⟩ := Option.map_eq_some_iff.mp asked
      split
      · exact inv.ret elsewhere p.ret
      · -- the settings are stored while no channel waits
        have same : channels cfg (s.log ++ [.changed p.settings.bigCreateParam.numBis]) =
            { channels cfg s.log with numBis := p.settings.bigCreateParam.numBis } := channels_snoc
        refine ⟨?_, ?_, ?_, Or.inl ?_, fun _ => ungiven, always_snoc.mpr ⟨inv.moments, trivial⟩⟩
        · exact (congrArg Channels.numBis same).symm
        · exact inv.connected.trans (congrArg (List.length ∘ Channels.up) same).symm
        · exact Nat.lt_of_le_of_lt (Nat.le_of_eq (congrArg Channels.total same)) inv.fits
        · exact (congrArg Channels.waiting same).trans (inv.none_waiting elsewhere)

theorem Inv.createBig (inv : Inv cfg s) (here : s.pc = .createBig) {err : Int}
    (finished : err = 0 → (channels cfg s.log).waiting = [] ∧ (channels cfg s.log).up = []) :
    Inv cfg (createBig s err) := by
  unfold Bis.createBig
  split
  · refine inv.ret ?_ err
    rw [here]
    decide
  · rename_i zero
    obtain ⟨-, none_⟩ := finished (not_not.mp zero)
    have fresh : channels cfg (s.log ++ [.created s.numBis]) =
        ⟨(channels cfg s.log).numBis, List.range s.numBis.toNat, [], []⟩ := channels_snoc
    have total : (channels cfg (s.log ++ [.created s.numBis])).total = s.numBis.toNat := by
      rw [fresh, Channels.total, List.length_range]
      rfl
    refine ⟨?_, ?_, ?_, Or.inr ⟨rfl, inv.reset (Or.inr here), total.symm⟩, .of_ne nofun nofun,
      always_snoc.mpr ⟨inv.moments, trivial⟩⟩
    · exact inv.numBis.trans (congrArg Channels.numBis fresh).symm
    · have before := inv.connected
      rw [none_] at before
      exact before.trans (congrArg (List.length ∘ Channels.up) fresh).symm
    · exact Nat.lt_of_le_of_lt (Nat.le_of_eq total) s.numBis.toNat_lt

/-! ## The callbacks -/

theorem total_connected {c : Channels} (waits : chan ∈ c.waiting) (complete : Bool) :
    (c.observe (.connected chan complete)).total = c.total := by
  have some := List.length_pos_of_mem waits
  simp only [Channels.observe, Channels.total, List.length_erase_of_mem waits, List.length_append,
    List.length_singleton]
  omega

theorem total_disconnected {c : Channels} (up : chan ∈ c.up) (term : Bool) :
    (c.observe (.disconnected chan term)).total = c.total := by
  have some := List.length_pos_of_mem up
  simp only [Channels.observe, Channels.total, List.length_erase_of_mem up, List.length_append,
    List.length_singleton]
  omega

theorem isoConnected_eq (s : App) (chan : Nat) : ∃ complete : Bool,
    (complete = true ↔ s.connectedBis + 1 = s.numBis) ∧
      isoConnected s chan =
        { s with
          connectedBis := s.connectedBis + 1
          semBigComplete := if complete then s.semBigComplete.give else s.semBigComplete
          log := s.log ++ [.connected chan complete] } := by
  unfold isoConnected
  dsimp only
  split
  · rename_i last
    exact ⟨true, ⟨fun _ => last, fun _ => rfl⟩, rfl⟩
  · rename_i more
    exact ⟨false, ⟨nofun, fun last => absurd last more⟩, rfl⟩

theorem isoDisconnected_eq (s : App) (chan : Nat) : ∃ term : Bool,
    (term = true ↔ s.connectedBis - 1 = s.numBis) ∧
      isoDisconnected s chan =
        { s with
          connectedBis := s.connectedBis - 1
          semBigTerm := if term then s.semBigTerm.give else s.semBigTerm
          log := s.log ++ [.disconnected chan term] } := by
  unfold isoDisconnected
  dsimp only
  split
  · rename_i last
    exact ⟨true, ⟨fun _ => last, fun _ => rfl⟩, rfl⟩
  · rename_i more
    exact ⟨false, ⟨nofun, fun last => absurd last more⟩, rfl⟩

theorem Inv.isoConnected (inv : Inv cfg s) (waiting : chan ∈ (channels cfg s.log).waiting) :
    Inv cfg (isoConnected s chan) := by
  obtain ⟨here, ungiven, total⟩ := inv.waits.resolve_left (List.ne_nil_of_mem waiting)
  obtain ⟨complete, gives, same⟩ := isoConnected_eq s chan
  have more : (s.connectedBis + 1).toNat = (channels cfg s.log).up.length + 1 := by
    have some := List.length_pos_of_mem waiting
    have fits := inv.fits
    rw [Channels.total] at fits
    rw [UInt8.toNat_add, inv.connected]
    exact Nat.mod_eq_of_lt (by have one : (1 : UInt8).toNat = 1 := rfl; omega)
  rw [← UInt8.toNat_inj, more, total] at gives
  rw [same]
  have seen : channels cfg (s.log ++ [.connected chan complete]) =
      (channels cfg s.log).observe (.connected chan complete) := channels_snoc
  have kept : (channels cfg (s.log ++ [.connected chan complete])).total =
      (channels cfg s.log).total := by
    rw [seen, total_connected waiting]
  refine ⟨?_, ?_, Nat.lt_of_le_of_lt (Nat.le_of_eq kept) inv.fits, ?_, ?_,
    always_snoc.mpr ⟨inv.moments, waiting, gives⟩⟩
  · exact inv.numBis.trans (congrArg Channels.numBis seen).symm
  · rw [more, seen, Channels.observe, List.length_append, List.length_singleton]
  · cases complete with
    | false => exact Or.inr ⟨here, ungiven, total.trans kept.symm⟩
    | true =>
        -- all channels are connected, so that none waits
        refine Or.inl (List.length_eq_zero_iff.mp ?_)
        have all := gives.mp rfl
        rw [Channels.total] at all
        simp only [seen, Channels.observe, List.length_erase_of_mem waiting]
        omega
  · apply Reset.of_ne
    · exact here ▸ nofun
    · exact here ▸ nofun

theorem Inv.isoDisconnected (inv : Inv cfg s) (up : chan ∈ (channels cfg s.log).up) :
    Inv cfg (isoDisconnected s chan) := by
  obtain ⟨term, gives, same⟩ := isoDisconnected_eq s chan
  have some := List.length_pos_of_mem up
  have fewer : (s.connectedBis - 1).toNat = (channels cfg s.log).up.length - 1 := by
    have one : (1 : UInt8) ≤ s.connectedBis := by
      rw [UInt8.le_iff_toNat_le, inv.connected]
      exact some
    rw [UInt8.toNat_sub_of_le _ _ one, inv.connected]
    rfl
  have gives : term = true ↔
      (channels cfg s.log).up.length = (channels cfg s.log).numBis.toNat + 1 := by
    rw [gives, ← UInt8.toNat_inj, fewer, inv.numBis]
    omega
  rw [same]
  have seen : channels cfg (s.log ++ [.disconnected chan term]) =
      (channels cfg s.log).observe (.disconnected chan term) := channels_snoc
  have kept : (channels cfg (s.log ++ [.disconnected chan term])).total =
      (channels cfg s.log).total := by
    rw [seen, total_disconnected up]
  refine ⟨?_, ?_, Nat.lt_of_le_of_lt (Nat.le_of_eq kept) inv.fits, ?_, inv.reset,
    always_snoc.mpr ⟨inv.moments, up, gives⟩⟩
  · exact inv.numBis.trans (congrArg Channels.numBis seen).symm
  · rw [fewer, seen, Channels.observe, List.length_erase_of_mem up]
  · refine inv.waits.imp (fun none_ => ?_) fun ⟨here, ungiven, total⟩ => ?_
    · exact (congrArg Channels.waiting seen).trans none_
    · exact ⟨here, ungiven, total.trans kept.symm⟩

/-! ## The runs -/

theorem inv_step {a : Act} (inv : Inv cfg s) (taken : step cfg s a = some t) : Inv cfg t := by
  cases a <;> simp only [step, Option.ite_none_right_eq_some, Option.some.injEq] at taken
  case start =>
    obtain ⟨here, rfl⟩ := taken
    have none_ := inv.none_waiting (by rw [here]; decide)
    exact inv.goes rfl rfl rfl none_ fun _ => rfl
  case settings answer =>
    obtain ⟨here, asked⟩ := taken
    exact inv.askSettings here asked
  case createBig err =>
    obtain ⟨⟨here, finished⟩, rfl⟩ := taken
    exact inv.createBig here finished
  case bigComplete =>
    obtain ⟨here, goes⟩ := taken
    obtain ⟨sem, took, rfl⟩ := Option.map_eq_some_iff.mp goes
    have given := Semaphore.take_eq_some.mp took
    have none_ := inv.waits.resolve_right fun waits => by
      rw [waits.2.1] at given
      omega
    exact inv.goes rfl rfl rfl none_ (.of_ne nofun nofun)
  case quit err =>
    obtain ⟨here, rfl⟩ := taken
    exact inv.ret (by rw [here]; decide) err
  case connected chan =>
    obtain ⟨waiting, rfl⟩ := taken
    exact inv.isoConnected waiting
  case disconnected chan =>
    obtain ⟨up, rfl⟩ := taken
    exact inv.isoDisconnected up

theorem inv_start : Inv cfg (start cfg) where
  numBis := rfl
  connected := rfl
  fits := Nat.two_pow_pos 8
  waits := Or.inl rfl
  reset _ := rfl
  moments := always_nil

theorem reachable_inv (run : Reachable (step cfg) (· = start cfg) unguarded s) : Inv cfg s := by
  apply run.invariant
  · rintro s rfl
    exact inv_start
  · intro s a t inv _ taken
    exact inv_step inv taken

/-- **The accounting of the channels**: `connected_bis` is the number of connected channels, and
the semaphores are given when they should at every report exactly when every report is in order. -/
theorem bis_accounting_iff (run : Reachable (step cfg) (· = start cfg) unguarded s) :
    s.connectedBis.toNat = (channels cfg s.log).up.length ∧
      (Always (Accounted cfg) s.log ↔ Always (InOrder cfg) s.log) := by
  have inv := reachable_inv run
  refine ⟨inv.connected, ?_⟩
  apply Always.congr
  intro past now future split
  exact (inv.moments past now future split).accounted_iff

/-- A BIG of one channel, which is connected. -/
theorem bis_accounting_iff_one : ∃ s,
    Reachable (step .shipped) (· = start .shipped) unguarded s ∧ s.connectedBis = 1 ∧
      s.connectedBis.toNat = (channels .shipped s.log).up.length ∧
      (Always (Accounted .shipped) s.log ↔ Always (InOrder .shipped) s.log) := by
  have found : (exec (step .shipped) unguarded (start .shipped)
      [.start, .settings none, .createBig 0, .connected 0, .bigComplete]).any
      (fun s => decide (s.connectedBis = 1)) = true := by decide +kernel
  obtain ⟨s, run, one⟩ : ∃ s, Reachable (step .shipped) (· = start .shipped) unguarded s ∧ _ :=
    exists_reachable_of_exec rfl found
  exact ⟨s, run, of_decide_eq_true one, bis_accounting_iff run⟩

/-- The only channel connects and disconnects, and `sem_big_term` is not given. -/
theorem last_channel_gives_nothing :
    ¬ ∀ cfg s, Reachable (step cfg) (· = start cfg) unguarded s →
      s.connectedBis.toNat = (channels cfg s.log).up.length ∧ Always (Accounted cfg) s.log := by
  intro accounted
  have found : (exec (step .shipped) unguarded (start .shipped)
      [.start, .settings none, .createBig 0, .connected 0, .disconnected 0]).any
      (fun s => decide
        (s.log = [.created 1, .connected 0 true, .disconnected 0 false])) = true := by
    decide +kernel
  obtain ⟨s, run, seen⟩ : ∃ s, Reachable (step .shipped) (· = start .shipped) unguarded s ∧ _ :=
    exists_reachable_of_exec rfl found
  obtain ⟨-, always⟩ := accounted .shipped s run
  rw [of_decide_eq_true seen] at always
  have last := always [.created 1, .connected 0 true] (.disconnected 0 false) [] rfl
  exact absurd (last.mpr (by decide)) (by decide)

end NcsExp.IsoBroadcast.Bis
