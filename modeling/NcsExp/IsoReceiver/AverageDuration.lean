/-
# NcsExp.IsoReceiver.AverageDuration -- the average that the ISO receiver reports

`iso_disconnected` computes the average duration of the BIG syncs from the average before,
which was rounded down: what a rounding loses is lost for good, and the losses add up.

A run is watched from outside (`Watch`): how long each sync lasted, and the average after
it.  In the runs of completed syncs with one BIS each (`Completes`) the averages are the
running mean of the durations, and `averages_floor_iff` says when that is the mean.
-/
import NcsExp.IsoReceiver.BigSync
import NcsExp.Theory.RunningMean

namespace NcsExp.IsoReceiver

open NcsExp.Theory

set_option autoImplicit false

/-! ## Watching a run -/

/-- A run, since when the last channel that was connected is up, and for every disconnected
callback the duration in milliseconds and `average_duration`. -/
structure Watch where
  app : App
  upSince : UInt64
  durations : List Nat
  averages : List Nat

namespace Watch

def start : Watch := ⟨IsoReceiver.start, 0, [], []⟩

/-- What is seen of an action that leads to `t`. -/
def see (w : Watch) (a : Act) (t : App) : Watch :=
  match a with
  | .connected _ _ now => { w with app := t, upSince := now }
  | .disconnected _ _ now =>
      { w with
        app := t
        durations := w.durations ++ [(now - w.upSince).toNat]
        averages := w.averages ++ [t.averageDuration.toNat] }
  | _ => { w with app := t }

def step (maxChan : Nat) (w : Watch) (a : Act) : Option Watch :=
  (IsoReceiver.step maxChan w.app a).map (w.see a)

end Watch

/-- The product and the sum in `iso_disconnected` fit their types. -/
def NoOverflow (s : App) (now : UInt64) : Prop :=
  (s.bigSyncCount.toNat - 1) * s.averageDuration.toNat < 2 ^ 63 ∧
    (now - s.bigSyncStartTime).toNat + (s.bigSyncCount.toNat - 1) * s.averageDuration.toNat < 2 ^ 64

/-- Each BIG sync has one BIS, connected while the thread waits for it and disconnected while it
waits for the loss. -/
def Completes (w : Watch) : Act → Prop
  | .connected big _ _ =>
      match w.app.pc with
      | .waitBigSync _ own => big = own ∧ ¬ ∃ e ∈ w.app.log, e.IsUp big
      | _ => False
  | .disconnected big chan now =>
      InTime w.app (.disconnected big chan now) ∧ NoOverflow w.app now
  | a => InTime w.app a

instance (s : App) (now : UInt64) : Decidable (NoOverflow s now) :=
  inferInstanceAs (Decidable (_ ∧ _))

instance (w : Watch) (a : Act) : Decidable (Completes w a) := by
  induction a using Act.casesOn <;> dsimp only [Completes] <;>
    first
    | infer_instance
    | (generalize w.app.pc = pc; induction pc using Pc.casesOn <;> infer_instance)

/-- The guard of the runs of completed syncs with one BIS each. -/
def completes (w : Watch) (a : Act) : Bool := decide (Completes w a)

/-- After every sync the average is the mean of the durations so far, rounded down. -/
def Floors (w : Watch) : Prop :=
  w.averages.length = w.durations.length ∧
    ∀ n < w.durations.length, w.averages[n]? = some ((w.durations.take (n + 1)).sum / (n + 1))

/-- The remainder of the sum of the durations, by their number, never shrinks. -/
def RemaindersGrow (durations : List Nat) : Prop :=
  ∀ n < durations.length,
    (durations.take n).sum % n ≤ (durations.take (n + 1)).sum % (n + 1)

/-! ## Steps that are not about durations -/

/-- Neither a connected nor a disconnected callback. -/
def Event.Silent : Event → Prop
  | .connected _ _ => False
  | .disconnected _ _ _ => False
  | _ => True

/-- The BIG that the thread has synced to. -/
def Pc.own : Pc → Option Big
  | .waitBigSync _ big => some big
  | .countBigSync _ big => some big
  | .waitBigSyncLost _ big => some big
  | _ => none

/-- Nothing was reported of a channel since `log`. -/
def Grown (log log' : List Event) : Prop := ∃ new, log' = log ++ new ∧ ∀ e ∈ new, e.Silent

/-- The average is as before, nothing was reported of a channel, and if the thread has synced to
a BIG then the BIG is new or the start time is as before. -/
structure Quiet (s t : App) : Prop where
  log : Grown s.log t.log
  average : t.averageDuration = s.averageDuration
  own : ∀ big, t.pc.own = some big →
    s.pc.own = some big ∧ t.bigSyncStartTime = s.bigSyncStartTime ∨
      ¬ ∃ e ∈ s.log, e.IsBigSynced big

variable {s t u : App} {w w' : Watch} {maxChan : Nat} {big : Big} {log log' : List Event}
variable {e : Event}

theorem Grown.refl : Grown log log := ⟨[], (List.append_nil _).symm, by simp⟩

theorem Grown.snoc (grown : Grown log log') (silent : e.Silent := by exact trivial) :
    Grown log (log' ++ [e]) := by
  obtain ⟨new, rfl, all⟩ := grown
  refine ⟨new ++ [e], List.append_assoc .., fun f member => ?_⟩
  rcases List.mem_append.mp member with before | last
  · exact all f before
  · rw [List.mem_singleton.mp last]
    exact silent

namespace Quiet

/-- A step after which the thread has not synced to a BIG. -/
theorem unsynced (grown : Grown s.log t.log) (average : t.averageDuration = s.averageDuration)
    (none_ : t.pc.own = none) : Quiet s t :=
  ⟨grown, average, fun _ own => by rw [none_] at own; cases own⟩

/-- A step with which the thread keeps its BIG. -/
theorem keeps (grown : Grown s.log t.log) (average : t.averageDuration = s.averageDuration)
    (own : t.pc.own = s.pc.own) (startTime : t.bigSyncStartTime = s.bigSyncStartTime) :
    Quiet s t :=
  ⟨grown, average, fun _ synced => Or.inl ⟨own ▸ synced, startTime⟩⟩

/-- A code that is checked. -/
theorem checked (grown : Grown s.log u.log) (average : u.averageDuration = s.averageDuration)
    (err : Int) {pc : Pc} (none_ : pc.own = none) :
    Quiet s (if err ≠ 0 then u.ret err else u.goto pc) := by
  split
  · exact .unsynced grown.snoc average rfl
  · exact .unsynced grown average none_

theorem createPaSyncReturns (grown : Grown s.log u.log)
    (average : u.averageDuration = s.averageDuration) (sync : Sync) (err : Int) :
    Quiet s (createPaSyncReturns u sync err) := by
  unfold IsoReceiver.createPaSyncReturns
  dsimp only
  split
  · exact .unsynced grown.snoc.snoc average rfl
  · exact .unsynced grown.snoc average rfl

theorem createPaSync (s : App) (err : Int) (sync : Sync) : Quiet s (createPaSync s err sync) := by
  unfold IsoReceiver.createPaSync
  dsimp only
  split
  · exact .unsynced Grown.refl.snoc.snoc.snoc rfl rfl
  · exact .unsynced Grown.refl.snoc.snoc rfl rfl

theorem isoBigSync (s : App) (sync : Sync) {err : Int} {handle : Big}
    (fresh : err = 0 → ¬ ∃ e ∈ s.log, e.IsBigSynced handle) :
    Quiet s (isoBigSync s sync err handle) := by
  unfold IsoReceiver.isoBigSync
  dsimp only
  split
  · exact .unsynced Grown.refl.snoc rfl rfl
  · rename_i zero
    refine ⟨Grown.refl.snoc.snoc, rfl, fun big own => Or.inr ?_⟩
    cases own
    exact fresh (not_not.mp zero)

theorem cleanupReturns (s : App) (cause paErr bigErr : Int) :
    Quiet s (cleanupReturns s cause paErr bigErr) :=
  .unsynced Grown.refl.snoc rfl rfl

theorem cleanupBig (s : App) (big : Option Big) (cause paErr : Int) :
    Quiet s (cleanupBig s big cause paErr) := by
  unfold IsoReceiver.cleanupBig
  split
  · split
    · exact cleanupReturns s cause paErr 0
    · exact .unsynced .refl rfl rfl
  · exact cleanupReturns s cause paErr 0

end Quiet

theorem quiet_next {err : Int} {handle : Nat} (taken : next s err handle = some t) :
    Quiet s t := by
  unfold next at taken
  cases here : s.pc <;> simp only [here] at taken
  case idle => cases taken; exact .unsynced .refl rfl rfl
  case resetSems => cases taken; exact .unsynced .refl rfl rfl
  case startScan => cases taken; exact .checked .refl rfl err rfl
  case waitPerAdv =>
    obtain ⟨sem, -, rfl⟩ := Option.map_eq_some_iff.mp taken
    exact .checked (s := s) (u := { s with semPerAdv := sem }) .refl rfl err rfl
  case stopScan => cases taken; exact .checked .refl rfl err rfl
  case createPaSync =>
    simp only [Option.ite_none_left_eq_some, Option.some.injEq] at taken
    obtain ⟨-, rfl⟩ := taken
    exact .createPaSync s err handle
  case waitPerSync sync =>
    obtain ⟨sem, -, rfl⟩ := Option.map_eq_some_iff.mp taken
    unfold perSyncTaken
    split
    · exact .unsynced .refl rfl rfl
    · apply Quiet.createPaSyncReturns
        (u := ({ s with semPerSync := sem } : App).note (.awaited sync))
      · exact Grown.refl.snoc
      · rfl
  case deletePaSync sync =>
    cases taken
    unfold deletePaSync
    split
    · exact .createPaSyncReturns .refl rfl sync err
    · apply Quiet.createPaSyncReturns (u := s.note (.deleted sync))
      · exact Grown.refl.snoc
      · rfl
  case waitBigInfo sync =>
    obtain ⟨sem, -, rfl⟩ := Option.map_eq_some_iff.mp taken
    unfold bigInfoTaken
    split <;> exact .unsynced .refl rfl rfl
  case isoBigSync sync =>
    simp only [Option.ite_none_left_eq_some, not_and, Option.some.injEq] at taken
    obtain ⟨fresh, rfl⟩ := taken
    exact .isoBigSync s sync fresh
  case waitBigSync sync big =>
    obtain ⟨sem, -, rfl⟩ := Option.map_eq_some_iff.mp taken
    unfold bigSyncTaken
    split
    · exact .unsynced .refl rfl rfl
    · exact .keeps .refl rfl (by rw [here]; rfl) rfl
  case countBigSync sync big =>
    cases taken
    exact .keeps Grown.refl.snoc rfl (by rw [here]; rfl) rfl
  case waitBigSyncLost sync big =>
    obtain ⟨sem, -, rfl⟩ := Option.map_eq_some_iff.mp taken
    unfold bigSyncLostTaken
    split <;> exact .unsynced Grown.refl.snoc rfl rfl
  case cleanup sync big cause =>
    cases taken
    unfold cleanup
    split <;> exact .unsynced .refl rfl rfl
  case deleteSync sync big cause =>
    cases taken
    unfold deleteSync
    dsimp only
    split
    · exact .unsynced Grown.refl.snoc.snoc rfl rfl
    · exact .unsynced Grown.refl.snoc rfl rfl
  case cleanupBig big cause paErr => cases taken; exact .cleanupBig s big cause paErr
  case terminateBig big cause paErr => cases taken; exact .cleanupReturns s cause paErr err

/-! ## The invariant -/

/-- The averages are the running means of the durations; while the thread has synced to a BIG
that is up, the start time is since when it is. -/
structure WatchInv (w : Watch) : Prop where
  average : AverageInv w.app
  count : (averaged w.app.log).length = w.durations.length
  mean : w.app.averageDuration.toNat = runningMean w.durations
  averages : w.averages =
    (List.range w.durations.length).map fun n => runningMean (w.durations.take (n + 1))
  known : ∀ big, (∃ e ∈ w.app.log, e.IsUp big) → ∃ e ∈ w.app.log, e.IsBigSynced big
  upSince : ∀ big, w.app.pc.own = some big → (∃ e ∈ w.app.log, e.IsUp big) →
    w.app.bigSyncStartTime = w.upSince

theorem Event.Silent.averaged (silent : e.Silent) : e.averaged = none := by
  cases e <;> first | rfl | exact silent.elim

theorem Event.Silent.not_isUp (silent : e.Silent) : ¬ e.IsUp big := by
  cases e <;> first | exact id | exact silent.elim

theorem Grown.averaged (grown : Grown log log') : averaged log' = averaged log := by
  obtain ⟨new, rfl, silent⟩ := grown
  rw [IsoReceiver.averaged, List.filterMap_append,
    List.filterMap_eq_nil_iff.mpr fun e member => (silent e member).averaged, List.append_nil]
  rfl

theorem Grown.isUp (grown : Grown log log') (up : ∃ e ∈ log', e.IsUp big) :
    ∃ e ∈ log, e.IsUp big := by
  obtain ⟨new, rfl, silent⟩ := grown
  obtain ⟨e, member, up⟩ := up
  rcases List.mem_append.mp member with before | added
  · exact ⟨e, before, up⟩
  · exact absurd up (silent e added).not_isUp

theorem Grown.isBigSynced (grown : Grown log log') (synced : ∃ e ∈ log, e.IsBigSynced big) :
    ∃ e ∈ log', e.IsBigSynced big := by
  obtain ⟨new, rfl, -⟩ := grown
  obtain ⟨e, member, synced⟩ := synced
  exact ⟨e, List.mem_append_left new member, synced⟩

/-- A step that is not about durations. -/
theorem WatchInv.quiet (inv : WatchInv w) (average : AverageInv t) (quiet : Quiet w.app t) :
    WatchInv { w with app := t } where
  average := average
  count := quiet.log.averaged ▸ inv.count
  mean := quiet.average ▸ inv.mean
  averages := inv.averages
  known big up := quiet.log.isBigSynced (inv.known big (quiet.log.isUp up))
  upSince big own up := by
    have before := quiet.log.isUp up
    rcases quiet.own big own with ⟨owned, startTime⟩ | fresh
    · exact startTime.trans (inv.upSince big owned before)
    · exact absurd (inv.known big before) fresh

theorem WatchInv.isoConnected (inv : WatchInv w) {chan : Nat} (now : UInt64)
    (average : AverageInv (isoConnected w.app big chan now))
    (has : ∃ e ∈ w.app.log, e.HasChan big chan) :
    WatchInv { w with app := isoConnected w.app big chan now, upSince := now } where
  average := average
  count := by
    have same : averaged (w.app.log ++ [Event.connected big chan]) = averaged w.app.log :=
      averaged_snoc rfl
    exact (congrArg List.length same).trans inv.count
  mean := inv.mean
  averages := inv.averages
  known other up := by
    obtain ⟨e, member, up⟩ := up
    have synced : ∃ e ∈ w.app.log, e.IsBigSynced other := by
      rcases List.mem_append.mp member with before | new
      · exact inv.known other ⟨e, before, up⟩
      · rw [List.mem_singleton.mp new] at up
        exact up ▸ known_of_hasChan has
    obtain ⟨f, before, synced⟩ := synced
    exact ⟨f, List.mem_append_left _ before, synced⟩
  upSince _ _ _ := rfl

/-- What `iso_disconnected` computes, where nothing overflows. -/
theorem averageDuration_isoDisconnected (big : Big) (chan : Nat) {n : Nat} {now : UInt64}
    (count : s.bigSyncCount.toNat = n + 1) (fits : NoOverflow s now) :
    (isoDisconnected s big chan now).averageDuration.toNat =
      nextMean n s.averageDuration.toNat (now - s.bigSyncStartTime).toNat := by
  obtain ⟨-, sum⟩ := fits
  rw [count, Nat.add_sub_cancel] at sum
  have one : (1 : UInt32) ≤ s.bigSyncCount := by
    rw [UInt32.le_iff_toNat_le, count]
    exact Nat.le_add_left 1 n
  have others : (s.bigSyncCount - 1).toUInt64.toNat = n := by
    rw [UInt32.toNat_toUInt64, UInt32.toNat_sub_of_le _ _ one, count]
    rfl
  have product : ((s.bigSyncCount - 1).toUInt64 * s.averageDuration).toNat =
      n * s.averageDuration.toNat := by
    rw [UInt64.toNat_mul, others]
    exact Nat.mod_eq_of_lt (by omega)
  unfold isoDisconnected
  dsimp only
  rw [UInt64.toNat_div, UInt64.toNat_add, product, Nat.mod_eq_of_lt sum, UInt32.toNat_toUInt64,
    count, nextMean]

theorem means_snoc (ds : List Nat) (d : Nat) :
    (List.range (ds ++ [d]).length).map (fun n => runningMean ((ds ++ [d]).take (n + 1))) =
      (List.range ds.length).map (fun n => runningMean (ds.take (n + 1))) ++
        [runningMean (ds ++ [d])] := by
  rw [List.length_append, List.length_singleton, List.range_succ, List.map_append]
  congr 1
  · refine List.map_congr_left fun n member => ?_
    rw [List.take_append_of_le_length (List.mem_range.mp member)]
  · rw [List.map_singleton, List.take_of_length_le (by simp)]

theorem WatchInv.isoDisconnected (inv : WatchInv w) {chan : Nat} (now : UInt64)
    (average : AverageInv (isoDisconnected w.app big chan now))
    (met : Completes w (.disconnected big chan now)) :
    WatchInv (w.see (.disconnected big chan now) (isoDisconnected w.app big chan now)) := by
  obtain ⟨inTime, fits⟩ := met
  unfold InTime at inTime
  cases here : w.app.pc <;> simp only [here] at inTime
  case waitBigSyncLost sync own =>
    obtain ⟨rfl, -, up⟩ := inTime
    -- the callback divides by the number of the durations, this one included
    obtain ⟨-, counted, -⟩ := (always_snoc.mp average.tally.moments).2
    rw [inv.count] at counted
    have since := inv.upSince big (by rw [here]; rfl) up
    have mean := averageDuration_isoDisconnected big chan counted fits
    rw [inv.mean, since, ← runningMean_snoc] at mean
    have length : (averaged (w.app.log ++
        [Event.disconnected big chan w.app.bigSyncCount.toNat])).length =
          (w.durations ++ [(now - w.upSince).toNat]).length := by
      rw [averaged_disconnected, List.length_append, List.length_append, inv.count]
      rfl
    have reported : ∀ other, (∃ e ∈ w.app.log ++
          [Event.disconnected big chan w.app.bigSyncCount.toNat], e.IsUp other) →
        ∃ e ∈ w.app.log, e.IsUp other := by
      rintro other ⟨e, member, up⟩
      rcases List.mem_append.mp member with before | new
      · exact ⟨e, before, up⟩
      · rw [List.mem_singleton.mp new] at up
        exact up.elim
    refine ⟨average, length, mean, ?_, fun other up => ?_, fun other own up => ?_⟩
    · exact (congrArg₂ (· ++ [·]) inv.averages mean).trans (means_snoc _ _).symm
    · obtain ⟨f, before, synced⟩ := inv.known other (reported other up)
      exact ⟨f, List.mem_append_left _ before, synced⟩
    · exact inv.upSince other own (reported other up)

theorem watchInv_step {a : Act} (inv : WatchInv w) (met : Completes w a)
    (watched : w.step maxChan a = some w') : WatchInv w' := by
  obtain ⟨t, taken, rfl⟩ := Option.map_eq_some_iff.mp watched
  have inTime : InTime w.app a := by
    cases a with
    | connected big chan now => trivial
    | disconnected big chan now => exact met.1
    | _ => exact met
  have average := step_averageInv inv.average inTime taken
  cases a with
  | thread err handle => exact inv.quiet average (quiet_next taken)
  | scanRecv report =>
      simp only [step, Option.ite_none_right_eq_some, Option.some.injEq] at taken
      obtain ⟨-, rfl⟩ := taken
      refine inv.quiet average ?_
      unfold scanRecv
      split
      · exact .keeps .refl rfl rfl rfl
      · split <;> exact .keeps .refl rfl rfl rfl
  | synced sync =>
      simp only [step, Option.ite_none_right_eq_some, Option.some.injEq] at taken
      obtain ⟨-, rfl⟩ := taken
      exact inv.quiet average (.keeps Grown.refl.snoc rfl rfl rfl)
  | terminated sync =>
      simp only [step, Option.ite_none_right_eq_some, Option.some.injEq] at taken
      obtain ⟨-, rfl⟩ := taken
      exact inv.quiet average (.keeps Grown.refl.snoc rfl rfl rfl)
  | biginfo sync info =>
      simp only [step, Option.ite_none_right_eq_some, Option.some.injEq] at taken
      obtain ⟨-, rfl⟩ := taken
      refine inv.quiet average ?_
      unfold biginfoCb
      split <;> exact .keeps .refl rfl rfl rfl
  | connected big chan now =>
      simp only [step, Option.ite_none_right_eq_some, Option.some.injEq] at taken
      obtain ⟨⟨has, -⟩, rfl⟩ := taken
      exact inv.isoConnected now average has
  | disconnected big chan now =>
      simp only [step, Option.ite_none_right_eq_some, Option.some.injEq] at taken
      obtain ⟨-, rfl⟩ := taken
      exact inv.isoDisconnected now average met

theorem reachable_watchInv
    (run : Reachable (Watch.step maxChan) (· = Watch.start) completes w) : WatchInv w := by
  apply run.invariant
  · rintro w rfl
    have run : Reachable (IsoReceiver.step maxChan) (· = IsoReceiver.start) inTime
        IsoReceiver.start := .start rfl
    have first := reachable_averageInv run
    exact ⟨first, rfl, rfl, rfl, by simp [Watch.start, start], fun _ own => by cases own⟩
  · intro w a w' inv met taken
    exact watchInv_step inv (of_decide_eq_true met) taken

/-! ## The averages -/

/-- **The average is the mean**, rounded down, after each of the completed syncs of a run exactly
when the remainder of the sum of the durations never shrinks. -/
theorem averages_floor_iff
    (run : Reachable (Watch.step maxChan) (· = Watch.start) completes w) :
    Floors w ↔ RemaindersGrow w.durations := by
  have inv := reachable_watchInv run
  have reported {n : Nat} (below : n < w.durations.length) :
      w.averages[n]? = some (runningMean (w.durations.take (n + 1))) := by
    rw [inv.averages, List.getElem?_map, List.getElem?_range below]
    rfl
  have means : Floors w ↔
      ∀ n ≤ w.durations.length,
        runningMean (w.durations.take n) = (w.durations.take n).sum / n := by
    refine ⟨fun floors n within => ?_, fun means => ⟨?_, fun n below => ?_⟩⟩
    · cases n with
      | zero => rw [List.take_zero, Nat.div_zero]; rfl
      | succ n => exact Option.some.inj ((reported within).symm.trans (floors.2 n within))
    · rw [inv.averages, List.length_map, List.length_range]
    · exact (reported below).trans (congrArg some (means (n + 1) below))
  have remainders : RemaindersGrow w.durations ↔ ∀ n < w.durations.length,
      remainder (w.durations.take n) ≤ remainder (w.durations.take (n + 1)) := by
    refine forall₂_congr fun n below => ?_
    rw [remainder, remainder, List.length_take_of_le (Nat.le_of_lt below),
      List.length_take_of_le below]
  rw [means, remainders]
  exact runningMean_eq_iff w.durations

/-- A session with sync `n` and BIG `n`, which is lost after `d` milliseconds. -/
def lasting (n : Nat) (d : UInt64) : List Act :=
  toConnected n ++ [Act.thread 0 0, .thread 0 0, .disconnected n 0 (5 + d), .thread 0 0,
    .thread 0 0, .thread 0 0, .thread 0 0]

/-- Syncs of these durations, one after the other. -/
def lastingAll (ds : List UInt64) : List Act := ds.zipIdx.flatMap fun (d, n) => lasting n d

theorem averages_floor_iff_grows : ∃ w : Watch,
    Reachable (Watch.step 1) (· = Watch.start) completes w ∧ w.durations = [3, 4] ∧
      (Floors w ↔ RemaindersGrow w.durations) := by
  have found : (exec (Watch.step 1) completes Watch.start (lastingAll [3, 4])).any
      (fun w => decide (w.durations = [3, 4])) = true := by decide +kernel
  obtain ⟨w, run, lasted⟩ : ∃ w, Reachable (Watch.step 1) (· = Watch.start) completes w ∧ _ :=
    exists_reachable_of_exec rfl found
  exact ⟨w, run, of_decide_eq_true lasted, averages_floor_iff run⟩

/-- Syncs of 1, 0 and 2 milliseconds, and an average of 0. -/
theorem averages_not_floor :
    ¬ ∀ w, Reachable (Watch.step 1) (· = Watch.start) completes w → Floors w := by
  intro floors
  have found : (exec (Watch.step 1) completes Watch.start (lastingAll [1, 0, 2])).any
      (fun w => decide (w.durations = [1, 0, 2] ∧ w.averages = [1, 0, 0])) = true := by
    decide +kernel
  obtain ⟨w, run, seen⟩ : ∃ w, Reachable (Watch.step 1) (· = Watch.start) completes w ∧ _ :=
    exists_reachable_of_exec rfl found
  obtain ⟨durations, averages⟩ := of_decide_eq_true seen
  have third := (floors w run).2 2 (by rw [durations]; decide)
  rw [durations, averages] at third
  exact absurd third (by decide)

end NcsExp.IsoReceiver
