/-
# NcsExp.IsoReceiver.BigSync -- the average over the BIG syncs

`iso_disconnected` keeps the cumulative average of how long the BIG syncs lasted: the
value before counts for `big_sync_count - 1` of them and the new duration for one.  But
the thread increments `big_sync_count` some time after the connected callback, and only
if its wait has not timed out, while `iso_disconnected` runs once for each BIS, for
attempts that fail and for the BIG that `cleanup` terminates.

`averages_once`: the divisor is never 0 and each BIG sync is counted once in the runs in
which each disconnected callback is the first one while the thread waits for it, and the
count does not wrap (`InTime`).  `miscounted_after`: any other step breaks the law.
-/
import NcsExp.IsoReceiver.Model
import NcsExp.Theory.Progress
import Mathlib.Algebra.Group.Nat.Defs
import Mathlib.Data.List.Nodup

namespace NcsExp.IsoReceiver

open NcsExp.Theory

set_option autoImplicit false

/-! ## The law -/

/-- The BIG whose duration enters the average. -/
def Event.averaged : Event → Option Big
  | .disconnected big _ _ => some big
  | _ => none

/-- The BIGs in the average, in order. -/
def averaged (log : List Event) : List Big := log.filterMap Event.averaged

/-- The host reported a channel of the BIG as connected. -/
def Event.IsUp (big : Big) : Event → Prop
  | .connected b _ => b = big
  | _ => False

instance (big : Big) (e : Event) : Decidable (e.IsUp big) := by
  induction e using Event.casesOn <;> dsimp only [Event.IsUp] <;> infer_instance

/-- The sync to the BIG was established, and the thread has counted it. -/
def Established (log : List Event) (big : Big) : Prop :=
  .counted big ∈ log ∧ ∃ e ∈ log, e.IsUp big

/-- An update of the average is for an established BIG sync that is not in it yet, and
divides by the number of those in it, this one included; a BIG sync that the thread
sees lost is in the average. -/
def OnAverage (past : List Event) : Event → Prop
  | .disconnected big _ count =>
      count ≠ 0 ∧ count = (averaged past).length + 1 ∧ big ∉ averaged past ∧ Established past big
  | .lost big => big ∈ averaged past
  | _ => True

/-- The law at every moment, and that each BIG sync that was lost is counted once. -/
structure AveragesOnce (log : List Event) : Prop where
  moments : Always OnAverage log
  once : ∀ big, .lost big ∈ log → (averaged log).count big = 1

/-- A disconnected callback is for the BIG whose loss the thread waits for, after it was
connected, and the first of its channels; the count of BIG syncs does not wrap. -/
def InTime (s : App) : Act → Prop
  | .thread _ _ =>
      match s.pc with
      | .countBigSync _ _ => s.bigSyncCount.toNat + 1 < 2 ^ 32
      | _ => True
  | .disconnected big _ _ =>
      match s.pc with
      | .waitBigSyncLost _ own => big = own ∧ s.bigSyncLost = false ∧ ∃ e ∈ s.log, e.IsUp big
      | _ => False
  | _ => True

instance (s : App) (a : Act) : Decidable (InTime s a) := by
  induction a using Act.casesOn <;> dsimp only [InTime] <;>
    first
      | infer_instance
      | (generalize s.pc = pc; induction pc using Pc.casesOn <;> infer_instance)

/-- The guard of the runs in which every step is in time. -/
def inTime (s : App) (a : Act) : Bool := decide (InTime s a)

/-! ## The invariant -/

/-- What the invariant looks at. -/
structure View where
  log : List Event
  count : UInt32
  lost : Bool
  lostSem : Semaphore 1
  syncSem : Semaphore 1

def App.view (s : App) : View :=
  ⟨s.log, s.bigSyncCount, s.bigSyncLost, s.semBigSyncLost, s.semBigSync⟩

def View.note (v : View) (e : Event) : View := { v with log := v.log ++ [e] }

/-- The law, and that a BIG enters the average once and only if it was synced to. -/
structure Tally (log : List Event) : Prop where
  moments : Always OnAverage log
  nodup : (averaged log).Nodup
  known : ∀ big ∈ averaged log, ∃ e ∈ log, e.IsBigSynced big

/-- Every counted BIG sync is in the average. -/
structure Even (v : View) : Prop where
  count : v.count.toNat = (averaged v.log).length
  settled : ∀ big, .counted big ∈ v.log → big ∈ averaged v.log

/-- A channel may still be disconnected. -/
def Live (log : List Event) : Prop :=
  ∃ big chan, (∃ e ∈ log, e.HasChan big chan) ∧ ¬ ∃ e ∈ log, e.IsDown big chan

/-- From `reset_sems` to the BIG sync. -/
structure Before (v : View) : Prop where
  even : Even v
  notLost : v.lost = false
  ungiven : v.lostSem.count = 0
  live : v.syncSem.count ≠ 0 → Live v.log

/-- One BIG sync is counted and not yet in the average. -/
structure Owes (v : View) (big : Big) : Prop where
  counted : .counted big ∈ v.log
  notLost : v.lost = false
  ungiven : v.lostSem.count = 0
  fresh : big ∉ averaged v.log
  count : v.count.toNat = (averaged v.log).length + 1
  settled : ∀ other, .counted other ∈ v.log → other = big ∨ other ∈ averaged v.log

/-- The loss of the BIG sync was reported. -/
structure Paid (v : View) (big : Big) : Prop where
  even : Even v
  lost : v.lost = true
  there : big ∈ averaged v.log

/-- What holds of the average where the thread stands. -/
def Stand (v : View) : Pc → Prop
  | .idle => Even v
  | .resetSems => Even v ∧ v.lost = false
  | .startScan => Before v
  | .waitPerAdv => Before v
  | .stopScan => Before v
  | .createPaSync => Before v
  | .waitPerSync _ => Before v
  | .deletePaSync _ => Before v
  | .waitBigInfo _ => Before v
  | .isoBigSync _ => Before v
  | .waitBigSync _ big => Before v ∧ big ∉ averaged v.log
  | .countBigSync _ big => Before v ∧ big ∉ averaged v.log ∧ Live v.log
  | .waitBigSyncLost _ big => Owes v big ∨ Paid v big
  | .cleanup _ _ _ => Even v
  | .deleteSync _ _ _ => Even v
  | .cleanupBig _ _ _ => Even v
  | .terminateBig _ _ _ => Even v

structure AverageInv (s : App) : Prop where
  tally : Tally s.log
  stand : Stand s.view s.pc

/-! ## Observations that are not about the average -/

/-- Neither an update of the average nor a BIG sync that is counted. -/
def Event.Neutral : Event → Prop
  | .counted _ => False
  | .disconnected _ _ _ => False
  | _ => True

variable {s t : App} {v : View} {log : List Event} {e : Event} {big : Big} {chan : Nat}

theorem Event.Neutral.averaged (neutral : e.Neutral) : e.averaged = none := by
  cases e <;> first | rfl | exact neutral.elim

theorem Event.Neutral.ne_counted (neutral : e.Neutral) : .counted big ≠ e := by
  rintro rfl
  exact neutral

theorem averaged_snoc (none_ : e.averaged = none) : averaged (log ++ [e]) = averaged log := by
  simp [averaged, List.filterMap_append, none_]

theorem not_isDown (none_ : e.averaged = none) : ¬ e.IsDown big chan := by
  cases e <;> simp_all [Event.averaged, Event.IsDown]

theorem Tally.snoc (tally : Tally log) (none_ : e.averaged = none) (moment : OnAverage log e) :
    Tally (log ++ [e]) := by
  refine ⟨always_snoc.mpr ⟨tally.moments, moment⟩, ?_, fun big there => ?_⟩
  · rw [averaged_snoc none_]
    exact tally.nodup
  · rw [averaged_snoc none_] at there
    obtain ⟨e, member, synced⟩ := tally.known big there
    exact ⟨e, List.mem_append_left _ member, synced⟩

theorem Live.snoc (live : Live log) (none_ : e.averaged = none) : Live (log ++ [e]) := by
  obtain ⟨big, chan, ⟨f, member, has⟩, up⟩ := live
  refine ⟨big, chan, ⟨f, List.mem_append_left _ member, has⟩, ?_⟩
  rintro ⟨f, member, down⟩
  rcases List.mem_append.mp member with before | new
  · exact up ⟨f, before, down⟩
  · rw [List.mem_singleton.mp new] at down
    exact not_isDown none_ down

theorem Even.snoc (even : Even v) (neutral : e.Neutral) : Even (v.note e) := by
  refine ⟨?_, fun big counted => ?_⟩
  · rw [View.note, averaged_snoc neutral.averaged]
    exact even.count
  · rw [View.note, averaged_snoc neutral.averaged]
    exact even.settled big (by simpa [View.note, neutral.ne_counted] using counted)

theorem Before.snoc (before : Before v) (neutral : e.Neutral) : Before (v.note e) :=
  ⟨before.even.snoc neutral, before.notLost, before.ungiven,
    fun given => (before.live given).snoc neutral.averaged⟩

theorem Owes.snoc (owes : Owes v big) (neutral : e.Neutral) : Owes (v.note e) big := by
  refine ⟨List.mem_append_left _ owes.counted, owes.notLost, owes.ungiven, ?_, ?_, ?_⟩
  · rw [View.note, averaged_snoc neutral.averaged]
    exact owes.fresh
  · rw [View.note, averaged_snoc neutral.averaged]
    exact owes.count
  · intro other counted
    rw [View.note, averaged_snoc neutral.averaged]
    exact owes.settled other (by simpa [View.note, neutral.ne_counted] using counted)

theorem Paid.snoc (paid : Paid v big) (neutral : e.Neutral) : Paid (v.note e) big := by
  refine ⟨paid.even.snoc neutral, paid.lost, ?_⟩
  rw [View.note, averaged_snoc neutral.averaged]
  exact paid.there

theorem Stand.snoc {pc : Pc} (stand : Stand v pc) (neutral : e.Neutral) :
    Stand (v.note e) pc := by
  have fresh {big : Big} (out : big ∉ averaged v.log) : big ∉ averaged (v.note e).log := by
    rw [View.note, averaged_snoc neutral.averaged]
    exact out
  cases pc
  case resetSems => exact ⟨stand.1.snoc neutral, stand.2⟩
  case waitBigSync sync big => exact ⟨stand.1.snoc neutral, fresh stand.2⟩
  case countBigSync sync big =>
    exact ⟨stand.1.snoc neutral, fresh stand.2.1, stand.2.2.snoc neutral.averaged⟩
  case waitBigSyncLost sync big =>
    exact stand.imp (fun owes => owes.snoc neutral) fun paid => paid.snoc neutral
  case idle => exact Even.snoc stand neutral
  case cleanup => exact Even.snoc stand neutral
  case deleteSync => exact Even.snoc stand neutral
  case cleanupBig => exact Even.snoc stand neutral
  case terminateBig => exact Even.snoc stand neutral
  all_goals exact Before.snoc stand neutral

/-- `sem_big_sync` is given for a channel that may still be disconnected. -/
theorem Stand.give {pc : Pc} (stand : Stand v pc) (live : Live v.log) (sem : Semaphore 1) :
    Stand { v with syncSem := sem } pc := by
  have given (before : Before v) : Before { v with syncSem := sem } :=
    ⟨⟨before.even.count, before.even.settled⟩, before.notLost, before.ungiven, fun _ => live⟩
  have even (even : Even v) : Even { v with syncSem := sem } := ⟨even.count, even.settled⟩
  cases pc
  case resetSems => exact ⟨even stand.1, stand.2⟩
  case waitBigSync sync big => exact ⟨given stand.1, stand.2⟩
  case countBigSync sync big => exact ⟨given stand.1, stand.2⟩
  case waitBigSyncLost sync big =>
    refine stand.imp (fun owes => ?_) fun paid => ⟨even paid.even, paid.lost, paid.there⟩
    exact ⟨owes.counted, owes.notLost, owes.ungiven, owes.fresh, owes.count, owes.settled⟩
  case idle => exact even stand
  case cleanup => exact even stand
  case deleteSync => exact even stand
  case cleanupBig => exact even stand
  case terminateBig => exact even stand
  all_goals exact given stand

/-! ## The thread -/

/-- The thread has reset the semaphores and not synced to a BIG. -/
structure Early (s : App) : Prop where
  tally : Tally s.log
  before : Before s.view

namespace Early

theorem note (early : Early s) (neutral : e.Neutral) (moment : OnAverage s.log e) :
    Early (s.note e) :=
  ⟨early.tally.snoc neutral.averaged moment, early.before.snoc neutral⟩

theorem ret (early : Early s) (err : Int) : AverageInv (s.ret err) :=
  have returned := early.note (e := .returned err) trivial trivial
  ⟨returned.tally, returned.before.even⟩

theorem goto (early : Early s) {pc : Pc} (stand : Stand s.view pc) :
    AverageInv { s with pc } := ⟨early.tally, stand⟩

/-- A code that is checked, and the place the thread goes on to. -/
theorem checked (early : Early s) (err : Int) {pc : Pc} (stand : Stand s.view pc) :
    AverageInv (if err ≠ 0 then s.ret err else { s with pc }) := by
  split
  · exact early.ret err
  · exact early.goto stand

theorem createPaSyncReturns (early : Early s) (sync : Sync) (err : Int) :
    AverageInv (createPaSyncReturns s sync err) := by
  have returned : Early (s.note (.createPaSync (some sync) err)) :=
    early.note trivial trivial
  unfold IsoReceiver.createPaSyncReturns
  dsimp only
  split
  · exact returned.ret err
  · exact ⟨returned.tally, returned.before⟩

theorem createPaSync (early : Early s) (sync : Sync) (err : Int) :
    AverageInv (createPaSync s err sync) := by
  have called : Early (s.note (.perAdvSyncCreate (perAdvSyncParam s))) :=
    early.note trivial trivial
  unfold IsoReceiver.createPaSync
  dsimp only
  split
  · exact (called.note (e := .createPaSync none err) trivial trivial).ret err
  · have created := called.note (e := .created sync)
      trivial trivial
    exact created.goto created.before

theorem perSyncTaken (early : Early s) (sync : Sync) (err : Int) :
    AverageInv (perSyncTaken s sync err) := by
  unfold IsoReceiver.perSyncTaken
  split
  · exact early.goto early.before
  · exact (early.note (e := .awaited sync) trivial trivial).createPaSyncReturns sync 0

theorem deletePaSync (early : Early s) (sync : Sync) (err : Int) :
    AverageInv (deletePaSync s sync err) := by
  unfold IsoReceiver.deletePaSync
  split
  · exact early.createPaSyncReturns sync err
  · exact (early.note (e := .deleted sync) trivial trivial).createPaSyncReturns sync 0

theorem bigInfoTaken (early : Early s) (sync : Sync) (err : Int) :
    AverageInv (bigInfoTaken s sync err) := by
  unfold IsoReceiver.bigInfoTaken
  split
  · exact ⟨early.tally, early.before.even⟩
  · exact early.goto early.before

theorem isoBigSync (early : Early s) (sync : Sync) {err : Int}
    (fresh : err = 0 → ¬ ∃ e ∈ s.log, e.IsBigSynced big) :
    AverageInv (isoBigSync s sync err big) := by
  have called : Early (s.note (.isoBigSync sync (bigSyncParam s))) :=
    early.note trivial trivial
  unfold IsoReceiver.isoBigSync
  dsimp only
  split
  · exact ⟨called.tally, called.before.even⟩
  · rename_i zero
    have synced := called.note (e := .bigSynced big (bigSyncParam s).numBis)
      trivial trivial
    refine ⟨synced.tally, synced.before, fun there => ?_⟩
    have there : big ∈ averaged ((s.log ++ [Event.isoBigSync sync (bigSyncParam s)]) ++
        [Event.bigSynced big (bigSyncParam s).numBis]) := there
    rw [averaged_snoc rfl, averaged_snoc rfl] at there
    exact fresh (not_not.mp zero) (early.tally.known big there)

end Early

variable {sync : Sync}

theorem averageInv_bigSyncTaken {sem : Semaphore 1} {err : Int} (early : Early s)
    (fresh : big ∉ averaged s.log) (took : kSemTake s.semBigSync .msec err = some sem) :
    AverageInv (bigSyncTaken { s with semBigSync := sem } sync big err) := by
  have even : Even { s.view with syncSem := sem } :=
    ⟨early.before.even.count, early.before.even.settled⟩
  unfold bigSyncTaken
  split
  · exact ⟨early.tally, even⟩
  · rename_i zero
    rcases kSemTake_eq_some.mp took with ⟨-, given⟩ | ⟨failed, -⟩
    · have live : Live s.log := early.before.live (by
        intro none_
        have none_ : s.semBigSync.count = 0 := none_
        omega)
      exact ⟨early.tally, ⟨even, early.before.notLost, early.before.ungiven, fun _ => live⟩,
        fresh, live⟩
    · exact absurd (not_not.mp zero) failed

theorem averageInv_countBigSync (early : Early s) (fresh : big ∉ averaged s.log)
    (room : s.bigSyncCount.toNat + 1 < 2 ^ 32) : AverageInv (countBigSync s sync big) := by
  have same : averaged (s.log ++ [Event.counted big]) = averaged s.log := averaged_snoc rfl
  have more : (s.bigSyncCount + 1).toNat = s.bigSyncCount.toNat + 1 := by
    rw [UInt32.toNat_add]
    exact Nat.mod_eq_of_lt room
  refine ⟨early.tally.snoc (e := .counted big) rfl trivial, Or.inl ?_⟩
  refine ⟨by simp [countBigSync, App.view], early.before.notLost, early.before.ungiven, ?_, ?_, ?_⟩
  · exact fun there => fresh (same ▸ there)
  · have counts : s.bigSyncCount.toNat = (averaged s.log).length := early.before.even.count
    calc (s.bigSyncCount + 1).toNat = (averaged s.log).length + 1 := by rw [more, counts]
      _ = (averaged (s.log ++ [Event.counted big])).length + 1 := by rw [same]
  · intro other counted
    have counted : .counted other ∈ s.log ++ [Event.counted big] := counted
    rcases List.mem_append.mp counted with before | new
    · exact Or.inr (same.symm ▸ early.before.even.settled other before)
    · cases List.mem_singleton.mp new
      exact Or.inl rfl

/-- The take of `sem_big_sync_lost`, which only the loss of the BIG sync gives. -/
theorem averageInv_bigSyncLostTaken {sem : Semaphore 1} {err : Int} (tally : Tally s.log)
    (stand : Owes s.view big ∨ Paid s.view big)
    (took : kSemTake s.semBigSyncLost .forever err = some sem) :
    AverageInv (bigSyncLostTaken { s with semBigSyncLost := sem } sync big err) := by
  rcases kSemTake_eq_some.mp took with ⟨rfl, given⟩ | ⟨-, impossible, -⟩
  · rcases stand with owes | paid
    · have none_ : s.semBigSyncLost.count = 0 := owes.ungiven
      omega
    · have even : Even (s.view.note (.lost big)) := paid.even.snoc trivial
      exact ⟨tally.snoc (e := .lost big) rfl paid.there, even.count, even.settled⟩
  · cases impossible

/-- `cleanup` does not count. -/
structure Late (s : App) : Prop where
  tally : Tally s.log
  even : Even s.view

namespace Late

theorem note (late : Late s) (neutral : e.Neutral) (moment : OnAverage s.log e) :
    Late (s.note e) :=
  ⟨late.tally.snoc neutral.averaged moment, late.even.snoc neutral⟩

theorem cleanup (late : Late s) (big : Option Big) (cause : Int) :
    AverageInv (cleanup s sync big cause) := by
  unfold IsoReceiver.cleanup
  split <;> exact ⟨late.tally, late.even⟩

theorem deleteSync (late : Late s) (big : Option Big) (cause paErr : Int) :
    AverageInv (deleteSync s sync big cause paErr) := by
  have called := late.note (e := .cleanupDelete sync) trivial trivial
  unfold IsoReceiver.deleteSync
  dsimp only
  split
  · have deleted := called.note (e := .deleted sync) trivial trivial
    exact ⟨deleted.tally, deleted.even⟩
  · exact ⟨called.tally, called.even⟩

theorem cleanupReturns (late : Late s) (cause paErr bigErr : Int) :
    AverageInv (cleanupReturns s cause paErr bigErr) :=
  have returned := late.note (e := .returned _) trivial trivial
  ⟨returned.tally, returned.even⟩

theorem cleanupBig (late : Late s) (big : Option Big) (cause paErr : Int) :
    AverageInv (cleanupBig s big cause paErr) := by
  unfold IsoReceiver.cleanupBig
  split
  · split
    · exact late.cleanupReturns cause paErr 0
    · exact ⟨late.tally, late.even⟩
  · exact late.cleanupReturns cause paErr 0

end Late

theorem averageInv_next (inv : AverageInv s) {err : Int} {handle : Nat}
    (met : InTime s (.thread err handle)) (taken : next s err handle = some t) :
    AverageInv t := by
  obtain ⟨tally, stand⟩ := inv
  unfold next at taken
  unfold InTime at met
  cases here : s.pc <;> simp only [here] at taken stand met
  case idle =>
    cases taken
    have even : Even s.view := stand
    exact ⟨tally, ⟨even.count, even.settled⟩, rfl⟩
  case resetSems =>
    cases taken
    exact ⟨tally, ⟨stand.1.count, stand.1.settled⟩, stand.2, rfl, fun given => absurd rfl given⟩
  case startScan => cases taken; exact Early.checked ⟨tally, stand⟩ err stand
  case waitPerAdv =>
    obtain ⟨sem, -, rfl⟩ := Option.map_eq_some_iff.mp taken
    exact Early.checked (s := { s with semPerAdv := sem }) ⟨tally, stand⟩ err stand
  case stopScan => cases taken; exact Early.checked ⟨tally, stand⟩ err stand
  case createPaSync =>
    simp only [Option.ite_none_left_eq_some, Option.some.injEq] at taken
    obtain ⟨-, rfl⟩ := taken
    exact Early.createPaSync ⟨tally, stand⟩ handle err
  case waitPerSync sync =>
    obtain ⟨sem, -, rfl⟩ := Option.map_eq_some_iff.mp taken
    exact Early.perSyncTaken (s := { s with semPerSync := sem }) ⟨tally, stand⟩ sync err
  case deletePaSync sync => cases taken; exact Early.deletePaSync ⟨tally, stand⟩ sync err
  case waitBigInfo sync =>
    obtain ⟨sem, -, rfl⟩ := Option.map_eq_some_iff.mp taken
    exact Early.bigInfoTaken (s := { s with semPerBigInfo := sem }) ⟨tally, stand⟩ sync err
  case isoBigSync sync =>
    simp only [Option.ite_none_left_eq_some, not_and, Option.some.injEq] at taken
    obtain ⟨fresh, rfl⟩ := taken
    exact Early.isoBigSync ⟨tally, stand⟩ sync fresh
  case waitBigSync sync big =>
    obtain ⟨sem, took, rfl⟩ := Option.map_eq_some_iff.mp taken
    exact averageInv_bigSyncTaken ⟨tally, stand.1⟩ stand.2 took
  case countBigSync sync big =>
    cases taken
    exact averageInv_countBigSync ⟨tally, stand.1⟩ stand.2.1 met
  case waitBigSyncLost sync big =>
    obtain ⟨sem, took, rfl⟩ := Option.map_eq_some_iff.mp taken
    exact averageInv_bigSyncLostTaken tally stand took
  case cleanup sync big cause => cases taken; exact Late.cleanup ⟨tally, stand⟩ big cause
  case deleteSync sync big cause =>
    cases taken
    exact Late.deleteSync ⟨tally, stand⟩ big cause err
  case cleanupBig big cause paErr =>
    cases taken
    exact Late.cleanupBig ⟨tally, stand⟩ big cause paErr
  case terminateBig big cause paErr =>
    cases taken
    exact Late.cleanupReturns ⟨tally, stand⟩ cause paErr err

/-! ## The callbacks -/

/-- A callback that is not about a BIG. -/
theorem AverageInv.note (inv : AverageInv s) (neutral : e.Neutral) (moment : OnAverage s.log e) :
    Tally (s.log ++ [e]) ∧ Stand (s.view.note e) s.pc :=
  ⟨inv.tally.snoc neutral.averaged moment, inv.stand.snoc neutral⟩

theorem averageInv_scanRecv (inv : AverageInv s) (report : ScanReport) :
    AverageInv (scanRecv s report) := by
  unfold scanRecv
  split
  · exact inv
  · split
    · exact ⟨inv.tally, inv.stand⟩
    · exact inv

theorem averageInv_biginfoCb (inv : AverageInv s) (maxChan : Nat) (info : BigInfo) :
    AverageInv (biginfoCb maxChan s info) := by
  unfold biginfoCb
  split
  · exact inv
  · exact ⟨inv.tally, inv.stand⟩

theorem averageInv_isoConnected (inv : AverageInv s) (has : ∃ e ∈ s.log, e.HasChan big chan)
    (up : ¬ ∃ e ∈ s.log, e.IsDown big chan) (now : UInt64) :
    AverageInv (isoConnected s big chan now) := by
  obtain ⟨tally, stand⟩ := inv.note (e := .connected big chan) trivial trivial
  have live : Live s.log := ⟨big, chan, has, up⟩
  exact ⟨tally, stand.give (live.snoc rfl) s.semBigSync.give⟩

theorem known_of_hasChan (has : ∃ e ∈ log, e.HasChan big chan) : ∃ e ∈ log, e.IsBigSynced big := by
  obtain ⟨e, member, chan⟩ := has
  refine ⟨e, member, ?_⟩
  cases e with
  | bigSynced b numBis => exact chan.1
  | _ => exact chan.elim

theorem averaged_disconnected {count : Nat} :
    averaged (log ++ [Event.disconnected big chan count]) = averaged log ++ [big] := by
  simp [averaged, Event.averaged]

/-- An update of the average by a BIG that is not in it. -/
theorem Tally.update (tally : Tally log) {count : Nat}
    (moment : OnAverage log (.disconnected big chan count))
    (known : ∃ e ∈ log, e.IsBigSynced big) :
    Tally (log ++ [Event.disconnected big chan count]) := by
  have fresh : big ∉ averaged log := moment.2.2.1
  refine ⟨always_snoc.mpr ⟨tally.moments, moment⟩, ?_, fun b there => ?_⟩
  · rw [averaged_disconnected]
    exact List.Nodup.append tally.nodup (List.nodup_singleton big) (by simpa using fresh)
  · rw [averaged_disconnected] at there
    have known : ∃ e ∈ log, e.IsBigSynced b := by
      rcases List.mem_append.mp there with before | new
      · exact tally.known b before
      · rw [List.mem_singleton.mp new]
        exact known
    obtain ⟨e, member, synced⟩ := known
    exact ⟨e, List.mem_append_left _ member, synced⟩

/-- With it nothing is owed any more. -/
theorem Owes.update (owes : Owes v big) (count : Nat) (sem : Semaphore 1) :
    Paid { v.note (.disconnected big chan count) with lost := true, lostSem := sem } big := by
  have after : averaged (v.log ++ [Event.disconnected big chan count]) = averaged v.log ++ [big] :=
    averaged_disconnected
  refine ⟨⟨?_, fun other counted => ?_⟩, rfl, ?_⟩ <;> simp only [View.note, after]
  · rw [List.length_append, List.length_singleton]
    exact owes.count
  · have counted : .counted other ∈ v.log := by simpa [View.note] using counted
    rcases owes.settled other counted with rfl | before
    · exact List.mem_append_right _ (List.mem_singleton_self _)
    · exact List.mem_append_left _ before
  · exact List.mem_append_right _ (List.mem_singleton_self _)

theorem averageInv_isoDisconnected (inv : AverageInv s) (has : ∃ e ∈ s.log, e.HasChan big chan)
    (now : UInt64) (met : InTime s (.disconnected big chan now)) :
    AverageInv (isoDisconnected s big chan now) := by
  obtain ⟨tally, stand⟩ := inv
  unfold InTime at met
  cases here : s.pc <;> simp only [here] at met stand
  case waitBigSyncLost sync own =>
    obtain ⟨rfl, notLost, up⟩ := met
    rcases stand with owes | paid
    · have count : s.bigSyncCount.toNat = (averaged s.log).length + 1 := owes.count
      refine ⟨tally.update ?_ (known_of_hasChan has), ?_⟩
      · exact ⟨by omega, count, owes.fresh, owes.counted, up⟩
      · have stands : Stand (isoDisconnected s big chan now).view (.waitBigSyncLost sync big) :=
          Or.inr (owes.update s.bigSyncCount.toNat s.semBigSyncLost.give)
        rwa [← here] at stands
    · have lost : s.bigSyncLost = true := paid.lost
      rw [notLost] at lost
      cases lost

theorem step_averageInv {maxChan : Nat} {a : Act} (inv : AverageInv s) (met : InTime s a)
    (taken : step maxChan s a = some t) : AverageInv t := by
  cases a with
  | thread err handle => exact averageInv_next inv met taken
  | scanRecv report =>
      simp only [step, Option.ite_none_right_eq_some, Option.some.injEq] at taken
      obtain ⟨-, rfl⟩ := taken
      exact averageInv_scanRecv inv report
  | synced sync =>
      simp only [step, Option.ite_none_right_eq_some, Option.some.injEq] at taken
      obtain ⟨-, rfl⟩ := taken
      obtain ⟨tally, stand⟩ := inv.note (e := .synced sync) trivial trivial
      exact ⟨tally, stand⟩
  | terminated sync =>
      simp only [step, Option.ite_none_right_eq_some, Option.some.injEq] at taken
      obtain ⟨-, rfl⟩ := taken
      obtain ⟨tally, stand⟩ := inv.note (e := .terminated sync) trivial trivial
      exact ⟨tally, stand⟩
  | biginfo sync info =>
      simp only [step, Option.ite_none_right_eq_some, Option.some.injEq] at taken
      obtain ⟨-, rfl⟩ := taken
      exact averageInv_biginfoCb inv maxChan info
  | connected big chan now =>
      simp only [step, Option.ite_none_right_eq_some, Option.some.injEq] at taken
      obtain ⟨⟨has, -, up⟩, rfl⟩ := taken
      exact averageInv_isoConnected inv has up now
  | disconnected big chan now =>
      simp only [step, Option.ite_none_right_eq_some, Option.some.injEq] at taken
      obtain ⟨⟨has, -⟩, rfl⟩ := taken
      exact averageInv_isoDisconnected inv has now met

theorem reachable_averageInv {maxChan : Nat}
    (run : Reachable (step maxChan) (· = start) inTime s) : AverageInv s := by
  apply run.invariant
  · rintro s rfl
    exact ⟨⟨always_nil, List.nodup_nil, fun _ => by simp [averaged, start]⟩, rfl,
      fun _ counted => by simp [start, App.view] at counted⟩
  · intro s a t inv met taken
    exact step_averageInv inv (of_decide_eq_true met) taken

/-- **Each BIG sync is counted once**, and the divisor is never 0, in the runs whose
disconnected callbacks come in time. -/
theorem averages_once {maxChan : Nat} (run : Reachable (step maxChan) (· = start) inTime s) :
    AveragesOnce s.log := by
  have tally := (reachable_averageInv run).tally
  refine ⟨tally.moments, fun big lost => ?_⟩
  obtain ⟨past, before, there⟩ := tally.moments.of_mem lost
  have there : big ∈ averaged s.log := (before.filterMap Event.averaged).subset there
  exact List.count_eq_one_of_mem tally.nodup there

/-! ## A step that is not in time -/

/-- The disconnected callbacks. -/
def Act.IsDisconnected : Act → Prop
  | .disconnected _ _ _ => True
  | _ => False

/-- A disconnected callback can break the law, if it is not broken. -/
def Miscounts (maxChan : Nat) (s : App) : Prop :=
  ∃ w, Leads (step maxChan) Act.IsDisconnected s w ∧ ¬ Always OnAverage w.log

variable {maxChan : Nat}

/-- The thread stands elsewhere than at the wait for a BIG sync to be lost. -/
theorem Stand.even {pc : Pc} (stand : Stand v pc)
    (elsewhere : ∀ sync big, pc ≠ .waitBigSyncLost sync big) : Even v := by
  cases pc
  case waitBigSyncLost sync big => exact absurd rfl (elsewhere sync big)
  case resetSems => exact stand.1
  case waitBigSync sync big => exact stand.1.even
  case countBigSync sync big => exact stand.1.even
  case idle => exact stand
  case cleanup => exact stand
  case deleteSync => exact stand
  case cleanupBig => exact stand
  case terminateBig => exact stand
  all_goals exact Before.even stand

/-- Where every counted BIG sync is in the average, the divisor is too small by one. -/
theorem Even.miscounted (even : Even s.view) (now : UInt64) :
    ¬ Always OnAverage (isoDisconnected s big chan now).log := by
  intro always
  obtain ⟨-, count, -⟩ := (always_snoc.mp always).2
  have counts : s.bigSyncCount.toNat = (averaged s.log).length := even.count
  omega

/-- A callback for another BIG than the one that is owed, or one not reported as
connected. -/
theorem Owes.miscounted {own : Big} (owes : Owes s.view own) (now : UInt64)
    (wrong : big = own → ¬ ∃ e ∈ s.log, e.IsUp big) :
    ¬ Always OnAverage (isoDisconnected s big chan now).log := by
  intro always
  obtain ⟨-, -, fresh, counted, up⟩ := (always_snoc.mp always).2
  rcases owes.settled big counted with same | there
  · exact wrong same up
  · exact fresh there

theorem miscounted_of_disconnected (inv : AverageInv s) (now : UInt64)
    (late : ¬ InTime s (.disconnected big chan now)) :
    ¬ Always OnAverage (isoDisconnected s big chan now).log := by
  obtain ⟨-, stand⟩ := inv
  unfold InTime at late
  by_cases here : ∃ sync own, s.pc = .waitBigSyncLost sync own
  · obtain ⟨sync, own, here⟩ := here
    rw [here] at late stand
    rcases stand with owes | paid
    · exact owes.miscounted now fun same up => late ⟨same, owes.notLost, up⟩
    · exact paid.even.miscounted now
  · refine (stand.even fun sync own at_ => here ⟨sync, own, at_⟩).miscounted now

/-- **Any other step breaks the law**, at once or with the next disconnected callback. -/
theorem miscounted_after {a : Act} (run : Reachable (step maxChan) (· = start) inTime s)
    (taken : step maxChan s a = some t) (late : ¬ InTime s a) : Miscounts maxChan t := by
  have inv := reachable_averageInv run
  cases a with
  | thread err handle =>
      unfold InTime at late
      simp only [step, next] at taken
      cases here : s.pc <;> simp only [here, not_true] at late taken
      case countBigSync sync big =>
        cases taken
        have stand := inv.stand
        rw [here] at stand
        obtain ⟨other, chan, has, up⟩ := stand.2.2.snoc (e := .counted big) rfl
        have wrapped : (countBigSync s sync big).bigSyncCount.toNat = 0 := by
          have bound := s.bigSyncCount.toNat_lt
          have full : s.bigSyncCount.toNat + 1 = 2 ^ 32 := by omega
          have sum : (s.bigSyncCount + 1).toNat = (s.bigSyncCount.toNat + 1) % 2 ^ 32 :=
            UInt32.toNat_add ..
          rw [full] at sum
          exact sum
        refine ⟨isoDisconnected (countBigSync s sync big) other chan 0,
          .next (a := .disconnected other chan 0) .here trivial ?_, fun always => ?_⟩
        · exact if_pos ⟨has, up⟩
        · exact (always_snoc.mp always).2.1 wrapped
  | disconnected big chan now =>
      simp only [step, Option.ite_none_right_eq_some, Option.some.injEq] at taken
      obtain ⟨-, rfl⟩ := taken
      exact ⟨_, .here, miscounted_of_disconnected inv now late⟩
  | scanRecv report => exact absurd trivial late
  | synced sync => exact absurd trivial late
  | terminated sync => exact absurd trivial late
  | biginfo sync info => exact absurd trivial late
  | connected big chan now => exact absurd trivial late

/-! ## Two sessions, and a disconnect that comes early -/

theorem averages_once_twoSessions :
    ∃ s, Reachable (step 1) (· = start) inTime s ∧ averaged s.log = [0, 1] ∧
      AveragesOnce s.log := by
  have found : (exec (step 1) inTime start
      (session 0 ++ session 1)).any
      (fun s => decide (averaged s.log = [0, 1])) = true := by
    decide +kernel
  obtain ⟨s, run, sessions⟩ : ∃ s, Reachable (step 1) (· = start) inTime s ∧ _ = true :=
    exists_reachable_of_exec rfl found
  exact ⟨s, run, of_decide_eq_true sessions, averages_once run⟩

/-- **A division by zero**: the BIG sync is lost before the thread has counted it. -/
theorem divides_by_zero :
    ¬ ∀ s, Reachable (step 1) (· = start) unguarded s → AveragesOnce s.log := by
  intro averaged
  have found : (exec (step 1) unguarded start (toConnected 0 ++ [Act.disconnected 0 0 9])).any
      (fun s => decide (.disconnected 0 0 0 ∈ s.log)) = true := by
    decide +kernel
  obtain ⟨s, run, divided⟩ : ∃ s, Reachable (step 1) (· = start) unguarded s ∧ _ = true :=
    exists_reachable_of_exec rfl found
  obtain ⟨past, -, nonzero, -⟩ := (averaged s run).moments.of_mem (of_decide_eq_true divided)
  exact nonzero rfl

end NcsExp.IsoReceiver
