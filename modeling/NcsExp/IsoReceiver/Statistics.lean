/-
# NcsExp.IsoReceiver.Statistics -- what the ISO receiver counts

`iso_recv` of `receiver.c` counts valid and invalid packets since boot and since the
current sync began, and keeps the flags of the latest 1000 packets in an array that it
writes round and round.  At every 100th packet it reports all three; the array is read
only as far as it was written.

The value of `BT_ISO_FLAGS_VALID` comes from Zephyr and is a parameter.  A function has no
value if it reaches outside of the array.  The receiver is run with what it is called with
(`Act`), and each call is kept with what it printed.  `statistics_exact`: the array is never
left, and every report is exact for the calls so far.
-/
import NcsExp.Theory.History
import NcsExp.Theory.CellRing
import Mathlib.Algebra.Group.Nat.Defs
import Mathlib.Data.Bool.Count
import Mathlib.Data.List.Induction

namespace NcsExp.IsoReceiver.Statistics

open NcsExp.Theory

set_option autoImplicit false

/-! ## The code -/

/-- `struct iso_recv_stats`. -/
structure IsoRecvStats where
  isoRecvCount : UInt32
  isoLostCount : UInt32
  deriving DecidableEq

/-- What `print_stats` is given. -/
structure Report where
  overall : IsoRecvStats
  currentSync : IsoRecvStats
  latest : IsoRecvStats
  deriving DecidableEq

/-- The static variables of `receiver.c` and of `iso_recv`. -/
structure State where
  statsCurrentSync : IsoRecvStats
  statsOverall : IsoRecvStats
  statsLatest : CellRing Bool

def boot : State where
  statsCurrentSync := ⟨0, 0⟩
  statsOverall := ⟨0, 0⟩
  statsLatest := ⟨fun _ => false, 0⟩

/-- `ARRAY_SIZE(stats_latest_arr)`, and its size in bytes. -/
def LATEST_ARR_SIZE : Nat := 1000

/-- One more packet. -/
def IsoRecvStats.count (stats : IsoRecvStats) (valid : Bool) : IsoRecvStats :=
  if valid then { stats with isoRecvCount := stats.isoRecvCount + 1 }
  else { stats with isoLostCount := stats.isoLostCount + 1 }

/-- The write to `stats_latest_arr`, lines 187-197. -/
def storeLatest (ring : CellRing Bool) (valid : Bool) : Option (CellRing Bool) :=
  if ring.pos < LATEST_ARR_SIZE then some (ring.push LATEST_ARR_SIZE valid) else none

/-- The loop of lines 204-216 from `i` on. -/
def countLatest (arr : Memory Bool) (totalPackets : UInt32) :
    Nat → Nat → IsoRecvStats → Option IsoRecvStats
  | 0, _, stats => some stats
  | n + 1, i, stats =>
      if UInt32.ofNat i = totalPackets then some stats
      else if i < LATEST_ARR_SIZE then
        countLatest arr totalPackets n (i + 1) (stats.count (arr i))
      else none

/-- `iso_recv`, lines 174-223, with the report it prints. -/
def isoRecv (isoFlagsValid : UInt8) (s : State) (flags : UInt8) : Option (State × Option Report) :=
  let valid := flags == isoFlagsValid
  (storeLatest s.statsLatest valid).bind fun ring =>
    let s : State :=
      { statsCurrentSync := s.statsCurrentSync.count valid
        statsOverall := s.statsOverall.count valid
        statsLatest := ring }
    let totalPackets := s.statsOverall.isoRecvCount + s.statsOverall.isoLostCount
    if totalPackets % 100 = 0 then
      (countLatest ring.cells totalPackets LATEST_ARR_SIZE 0 ⟨0, 0⟩).map fun latest =>
        (s, some ⟨s.statsOverall, s.statsCurrentSync, latest⟩)
    else some (s, none)

/-- `test_run_receiver`, line 475, before it syncs to a BIG. -/
def newSync (s : State) : State := { s with statsCurrentSync := ⟨0, 0⟩ }

inductive Act
  | isoRecv (flags : UInt8)
  | newSync
  deriving DecidableEq

def step (isoFlagsValid : UInt8) (s : State) : Act → Option (State × Option Report)
  | .isoRecv flags => isoRecv isoFlagsValid s flags
  | .newSync => some (newSync s, none)

/-- An act with the report that was printed in it. -/
structure Entry where
  act : Act
  report : Option Report
  deriving DecidableEq

/-- The next act of a run. -/
def runStep (isoFlagsValid : UInt8) (now : State × List Entry) (a : Act) :
    Option (State × List Entry) :=
  (step isoFlagsValid now.1 a).map fun next => (next.1, now.2 ++ [⟨a, next.2⟩])

/-- The receiver after packets in any number of syncs, with the acts so far. -/
def run (isoFlagsValid : UInt8) (acts : List Act) : Option (State × List Entry) :=
  acts.foldlM (runStep isoFlagsValid) (boot, [])

/-! ## The law -/

def Act.valid (isoFlagsValid : UInt8) : Act → Option Bool
  | .isoRecv flags => some (flags == isoFlagsValid)
  | .newSync => none

/-- Whether the packets received were valid, in order. -/
def packets (isoFlagsValid : UInt8) (acts : List Act) : List Bool :=
  acts.filterMap (Act.valid isoFlagsValid)

def Act.since (isoFlagsValid : UInt8) (flags : List Bool) : Act → List Bool
  | .isoRecv now => flags ++ [now == isoFlagsValid]
  | .newSync => []

/-- The packets since the last sync began. -/
def sinceSync (isoFlagsValid : UInt8) (acts : List Act) : List Bool :=
  present (Act.since isoFlagsValid) [] acts

/-- The counters are those of the packets. -/
structure Exactly (stats : IsoRecvStats) (flags : List Bool) : Prop where
  isoRecvCount : stats.isoRecvCount.toNat = flags.count true
  isoLostCount : stats.isoLostCount.toNat = flags.count false

/-- A report of what was received. -/
structure ExactReport (isoFlagsValid : UInt8) (acts : List Act) (r : Report) : Prop where
  overall : Exactly r.overall (packets isoFlagsValid acts)
  currentSync : Exactly r.currentSync (sinceSync isoFlagsValid acts)
  latest : Exactly r.latest (newest LATEST_ARR_SIZE (packets isoFlagsValid acts))

/-- Every 100th packet is followed by an exact report, and nothing else by any. -/
def Reported (isoFlagsValid : UInt8) (past : List Entry) (now : Entry) : Prop :=
  let acts := past.map Entry.act ++ [now.act]
  (now.report.isSome ↔
      (∃ flags, now.act = .isoRecv flags) ∧ 100 ∣ (packets isoFlagsValid acts).length) ∧
    ∀ r, now.report = some r → ExactReport isoFlagsValid acts r

/-! ## Counting -/

variable {isoFlagsValid : UInt8} {stats : IsoRecvStats} {flags : List Bool} {valid : Bool}
  {s : State} {acts : List Act}

theorem exactly_nil : Exactly ⟨0, 0⟩ [] := ⟨rfl, rfl⟩

theorem toNat_succ {n : UInt32} (room : n.toNat + 1 < 2 ^ 32) : (n + 1).toNat = n.toNat + 1 := by
  rw [UInt32.toNat_add]
  exact Nat.mod_eq_of_lt room

theorem Exactly.count (exactly : Exactly stats flags) (room : flags.length + 1 < 2 ^ 32)
    (valid : Bool) : Exactly (stats.count valid) (flags ++ [valid]) := by
  obtain ⟨recv, lost⟩ := exactly
  have all := List.count_le_length (a := true) (l := flags)
  have all' := List.count_le_length (a := false) (l := flags)
  cases valid with
  | true =>
      refine ⟨?_, by simpa [IsoRecvStats.count, List.count_append] using lost⟩
      have more : (stats.isoRecvCount + 1).toNat = stats.isoRecvCount.toNat + 1 :=
        toNat_succ (by omega)
      simp [IsoRecvStats.count, List.count_append, more, recv]
  | false =>
      refine ⟨by simpa [IsoRecvStats.count, List.count_append] using recv, ?_⟩
      have more : (stats.isoLostCount + 1).toNat = stats.isoLostCount.toNat + 1 :=
        toNat_succ (by omega)
      simp [IsoRecvStats.count, List.count_append, more, lost]

theorem Exactly.perm {flags' : List Bool} (exactly : Exactly stats flags)
    (same : flags.Perm flags') : Exactly stats flags' :=
  ⟨exactly.isoRecvCount.trans (same.count_eq true),
    exactly.isoLostCount.trans (same.count_eq false)⟩

/-- The sum of the counters. -/
theorem Exactly.total (exactly : Exactly stats flags) (few : flags.length < 2 ^ 32) :
    (stats.isoRecvCount + stats.isoLostCount).toNat = flags.length := by
  have sum : flags.count true + flags.count false = flags.length :=
    List.count_true_add_count_false flags
  rw [UInt32.toNat_add, exactly.isoRecvCount, exactly.isoLostCount, sum]
  exact Nat.mod_eq_of_lt few

theorem exactly_foldl (few : flags.length < 2 ^ 32) :
    Exactly (flags.foldl IsoRecvStats.count ⟨0, 0⟩) flags := by
  induction flags using List.reverseRecOn with
  | nil => exact exactly_nil
  | append_singleton flags valid ih =>
      rw [List.length_append, List.length_singleton] at few
      rw [List.foldl_append]
      exact (ih (by omega)).count few valid

/-- The loop counts the cells from `i` on, up to the number of packets. -/
theorem countLatest_eq (arr : Memory Bool) (totalPackets : UInt32) (n i : Nat)
    (stats : IsoRecvStats) (inside : i + n ≤ LATEST_ARR_SIZE) (begun : i ≤ totalPackets.toNat) :
    countLatest arr totalPackets n i stats =
      some ((arr.load i (min n (totalPackets.toNat - i))).foldl IsoRecvStats.count stats) := by
  induction n generalizing i stats with
  | zero => simp [countLatest]
  | succ n ih =>
      have small : i < 2 ^ 32 := by
        unfold LATEST_ARR_SIZE at inside
        omega
      have value : (UInt32.ofNat i).toNat = i := by
        rw [UInt32.toNat_ofNat']
        exact Nat.mod_eq_of_lt small
      rw [countLatest]
      by_cases last : UInt32.ofNat i = totalPackets
      · rw [if_pos last, ← last, value, Nat.sub_self, Nat.min_zero, Memory.load_zero,
          List.foldl_nil]
      · have more : i ≠ totalPackets.toNat := fun same => last (by
          rw [same]
          exact UInt32.ofNat_toNat)
        have split : min (n + 1) (totalPackets.toNat - i) =
            1 + min n (totalPackets.toNat - (i + 1)) := by
          omega
        rw [if_neg last, if_pos (by omega), ih (i + 1) _ (by omega) (by omega), split,
          Memory.load_add, List.foldl_append]
        rfl

/-! ## The invariant -/

/-- The variables are those of the acts so far. -/
structure Kept (isoFlagsValid : UInt8) (acts : List Act) (s : State) : Prop where
  overall : Exactly s.statsOverall (packets isoFlagsValid acts)
  currentSync : Exactly s.statsCurrentSync (sinceSync isoFlagsValid acts)
  shorter : (sinceSync isoFlagsValid acts).length ≤ (packets isoFlagsValid acts).length
  latest : Holds LATEST_ARR_SIZE s.statsLatest
    (newest LATEST_ARR_SIZE (packets isoFlagsValid acts))

theorem kept_boot : Kept isoFlagsValid [] boot where
  overall := exactly_nil
  currentSync := exactly_nil
  shorter := Nat.le_refl _
  latest := by
    have nothing : newest LATEST_ARR_SIZE (packets isoFlagsValid []) = [] := List.drop_nil
    rw [nothing]
    exact Holds.empty (by decide) _

theorem packets_recv (now : UInt8) :
    packets isoFlagsValid (acts ++ [.isoRecv now]) =
      packets isoFlagsValid acts ++ [now == isoFlagsValid] := by
  simp [packets, List.filterMap_append, Act.valid]

theorem packets_newSync :
    packets isoFlagsValid (acts ++ [.newSync]) = packets isoFlagsValid acts := by
  simp [packets, List.filterMap_append, Act.valid]

theorem sinceSync_recv (now : UInt8) :
    sinceSync isoFlagsValid (acts ++ [.isoRecv now]) =
      sinceSync isoFlagsValid acts ++ [now == isoFlagsValid] :=
  present_snoc

theorem sinceSync_newSync : sinceSync isoFlagsValid (acts ++ [.newSync]) = [] := present_snoc

theorem Kept.newSync (kept : Kept isoFlagsValid acts s) :
    Kept isoFlagsValid (acts ++ [.newSync]) (newSync s) where
  overall := by
    rw [packets_newSync]
    exact kept.overall
  currentSync := by
    rw [sinceSync_newSync]
    exact exactly_nil
  shorter := by
    rw [sinceSync_newSync]
    exact Nat.zero_le _
  latest := by
    rw [packets_newSync]
    exact kept.latest

/-- The array after a packet, and what the loop counts in it. -/
theorem Kept.latest_push (kept : Kept isoFlagsValid acts s)
    (few : (packets isoFlagsValid acts).length + 1 < 2 ^ 32) (valid : Bool) {totalPackets : UInt32}
    (total : totalPackets.toNat = (packets isoFlagsValid acts).length + 1) :
    Holds LATEST_ARR_SIZE (s.statsLatest.push LATEST_ARR_SIZE valid)
        (newest LATEST_ARR_SIZE (packets isoFlagsValid acts ++ [valid])) ∧
      ∃ latest, countLatest (s.statsLatest.push LATEST_ARR_SIZE valid).cells totalPackets
          LATEST_ARR_SIZE 0 ⟨0, 0⟩ = some latest ∧
        Exactly latest (newest LATEST_ARR_SIZE (packets isoFlagsValid acts ++ [valid])) := by
  have holds := kept.latest.push valid
  rw [← newest_snoc (by decide)] at holds
  have length : (newest LATEST_ARR_SIZE (packets isoFlagsValid acts ++ [valid])).length =
      min LATEST_ARR_SIZE (totalPackets.toNat - 0) := by
    rw [length_newest, List.length_append, List.length_singleton, total, Nat.sub_zero]
  have counted := countLatest_eq (s.statsLatest.push LATEST_ARR_SIZE valid).cells totalPackets
    LATEST_ARR_SIZE 0 ⟨0, 0⟩ (Nat.le_of_eq (Nat.zero_add _)) (Nat.zero_le _)
  rw [← length] at counted
  refine ⟨holds, _, counted, (exactly_foldl ?_).perm holds.perm⟩
  rw [Memory.length_load, length]
  omega

/-- The variables after a packet. -/
theorem Kept.recv (kept : Kept isoFlagsValid acts s)
    (few : (packets isoFlagsValid acts).length + 1 < 2 ^ 32) (now : UInt8) :
    Kept isoFlagsValid (acts ++ [.isoRecv now])
      { statsCurrentSync := s.statsCurrentSync.count (now == isoFlagsValid)
        statsOverall := s.statsOverall.count (now == isoFlagsValid)
        statsLatest := s.statsLatest.push LATEST_ARR_SIZE (now == isoFlagsValid) } where
  overall := by
    rw [packets_recv]
    exact kept.overall.count few _
  currentSync := by
    rw [sinceSync_recv]
    exact kept.currentSync.count (Nat.lt_of_le_of_lt (Nat.succ_le_succ kept.shorter) few) _
  shorter := by
    rw [packets_recv, sinceSync_recv, List.length_append, List.length_append]
    exact Nat.succ_le_succ kept.shorter
  latest := by
    rw [packets_recv, newest_snoc (by decide)]
    exact kept.latest.push _

/-- **A packet** is counted, and reported if it is the 100th one. -/
theorem Kept.isoRecv (kept : Kept isoFlagsValid acts s)
    (few : (packets isoFlagsValid acts).length + 1 < 2 ^ 32) (now : UInt8) :
    ∃ t report, isoRecv isoFlagsValid s now = some (t, report) ∧
      Kept isoFlagsValid (acts ++ [.isoRecv now]) t ∧
      (report.isSome ↔ 100 ∣ (packets isoFlagsValid (acts ++ [.isoRecv now])).length) ∧
      ∀ r, report = some r → ExactReport isoFlagsValid (acts ++ [.isoRecv now]) r := by
  have after := kept.recv few now
  have length : (packets isoFlagsValid (acts ++ [.isoRecv now])).length =
      (packets isoFlagsValid acts).length + 1 := by
    rw [packets_recv, List.length_append, List.length_singleton]
  have total := after.overall.total (length ▸ few)
  obtain ⟨-, latest, counted, exactly⟩ :=
    kept.latest_push few (now == isoFlagsValid) (total.trans length)
  rw [← packets_recv] at exactly
  have stored : storeLatest s.statsLatest (now == isoFlagsValid) =
      some (s.statsLatest.push LATEST_ARR_SIZE (now == isoFlagsValid)) :=
    if_pos kept.latest.pos_lt
  unfold Statistics.isoRecv
  simp only [stored, Option.bind_some]
  dsimp only at total
  generalize (s.statsOverall.count (now == isoFlagsValid)).isoRecvCount +
      (s.statsOverall.count (now == isoFlagsValid)).isoLostCount = totalPackets at total counted
  have due : totalPackets % 100 = 0 ↔
      100 ∣ (packets isoFlagsValid (acts ++ [.isoRecv now])).length := by
    rw [← UInt32.toNat_inj, UInt32.toNat_mod, total, Nat.dvd_iff_mod_eq_zero]
    rfl
  by_cases hundred : totalPackets % 100 = 0
  · rw [if_pos hundred, counted]
    refine ⟨_, _, rfl, after, iff_of_true rfl (due.mp hundred), ?_⟩
    rintro r ⟨⟩
    exact ⟨after.overall, after.currentSync, exactly⟩
  · rw [if_neg hundred]
    refine ⟨_, _, rfl, after, iff_of_false (by simp) (mt due.mpr hundred), ?_⟩
    rintro r ⟨⟩

/-! ## Any number of syncs -/

/-- One act keeps the variables, and a report is printed where one is due. -/
theorem Kept.step (kept : Kept isoFlagsValid acts s) (a : Act)
    (few : (packets isoFlagsValid (acts ++ [a])).length < 2 ^ 32) {past : List Entry}
    (same : past.map Entry.act = acts) :
    ∃ t report, step isoFlagsValid s a = some (t, report) ∧
      Kept isoFlagsValid (acts ++ [a]) t ∧ Reported isoFlagsValid past ⟨a, report⟩ := by
  subst same
  cases a with
  | isoRecv now =>
      rw [packets_recv, List.length_append, List.length_singleton] at few
      obtain ⟨t, report, received, kept', due, exact_⟩ := kept.isoRecv few now
      refine ⟨t, report, received, kept', ?_, exact_⟩
      exact due.trans (and_iff_right ⟨now, rfl⟩).symm
  | newSync =>
      refine ⟨Statistics.newSync s, none, rfl, kept.newSync, iff_of_false (by simp) ?_, ?_⟩
      · rintro ⟨⟨now, other⟩, -⟩
        cases other
      · rintro r ⟨⟩

theorem run_kept (acts : List Act) (few : (packets isoFlagsValid acts).length < 2 ^ 32) :
    ∃ s log, run isoFlagsValid acts = some (s, log) ∧ Kept isoFlagsValid acts s ∧
      log.map Entry.act = acts ∧ Always (Reported isoFlagsValid) log := by
  induction acts using List.reverseRecOn with
  | nil => exact ⟨boot, [], rfl, kept_boot, rfl, always_nil⟩
  | append_singleton acts a ih =>
      have fewer : (packets isoFlagsValid acts).length < 2 ^ 32 := by
        rw [packets, List.filterMap_append, List.length_append] at few
        exact Nat.lt_of_le_of_lt (Nat.le_add_right _ _) few
      obtain ⟨s, log, ran, kept, same, reported⟩ := ih fewer
      obtain ⟨t, report, taken, kept', now⟩ := kept.step a few same
      refine ⟨t, log ++ [⟨a, report⟩], ?_, kept', ?_, always_snoc.mpr ⟨reported, now⟩⟩
      · rw [run, List.foldlM_append, ← run, ran]
        simp [runStep, taken]
      · rw [List.map_append, same, List.map_singleton]

/-- **The statistics are exact**: for fewer than 2^32 packets in any number of syncs, the array is
never left, and every 100th packet is followed by an exact report. -/
theorem statistics_exact (isoFlagsValid : UInt8) (acts : List Act)
    (few : (packets isoFlagsValid acts).length < 2 ^ 32) :
    ∃ s log, run isoFlagsValid acts = some (s, log) ∧ log.map Entry.act = acts ∧
      Always (Reported isoFlagsValid) log := by
  obtain ⟨s, log, ran, -, same, reported⟩ := run_kept acts few
  exact ⟨s, log, ran, same, reported⟩

/-- Sixty valid packets, another sync, and forty invalid ones. -/
def twoSyncs : List Act :=
  List.replicate 60 (.isoRecv 0) ++ [.newSync] ++ List.replicate 40 (.isoRecv 1)

/-- Its report tells the syncs apart. -/
theorem statistics_exact_twoSyncs :
    (∃ s log, run 0 twoSyncs = some (s, log) ∧ log.map Entry.act = twoSyncs ∧
      Always (Reported 0) log) ∧
    (run 0 twoSyncs).bind (fun ran => ran.2.getLast?) =
      some ⟨.isoRecv 1, some ⟨⟨60, 40⟩, ⟨0, 40⟩, ⟨60, 40⟩⟩⟩ :=
  ⟨statistics_exact 0 twoSyncs (by decide), by decide +kernel⟩

end NcsExp.IsoReceiver.Statistics
