/-
# NcsExp.IsoReceiver.PaSync -- which periodic advertising syncs are used

`bt_iso_big_sync` and the delete in `cleanup` should be given a sync that was created,
whose synced callback was awaited, and that has been neither deleted nor terminated,
and `create_pa_sync` should return 0 only for such a one.  But `err` of the wait in
`create_pa_sync` is overwritten by the code of the delete, so a timeout followed by a
successful delete is a success; `sem_per_sync` says nothing of whose callback gave it;
and `per_adv_lost` is read by `cleanup` alone.

`sync_usable`: the law holds in the runs that keep clear of these (`KeepsSync`).
`misused_after`: any other step leads the thread alone to a violation.
-/
import NcsExp.IsoReceiver.Model
import NcsExp.Theory.Progress

namespace NcsExp.IsoReceiver

open NcsExp.Theory

set_option autoImplicit false

/-! ## The law -/

/-- Created, reported as synced and awaited, and neither deleted nor terminated. -/
structure Usable (log : List Event) (sync : Sync) : Prop where
  created : .created sync ∈ log
  synced : .synced sync ∈ log
  awaited : .awaited sync ∈ log
  kept : .deleted sync ∉ log
  alive : .terminated sync ∉ log

/-- What is used is usable, and what `create_pa_sync` returns as established too. -/
def OnUsable (past : List Event) : Event → Prop
  | .createPaSync sync err => err = 0 → ∃ own, sync = some own ∧ Usable past own
  | .isoBigSync sync _ => Usable past sync
  | .cleanupDelete sync => Usable past sync
  | _ => True

/-- The step keeps the sync of the run usable: the wait is for the run's own synced
callback, a delete after a timeout fails, and no termination comes between the synced
callback and `bt_iso_big_sync` (one before the BIGInfo is harmless unless the BIGInfo
of another sync follows) or between the test of `per_adv_lost` and the delete. -/
def KeepsSync (s : App) : Act → Prop
  | .thread err _ =>
      match s.pc with
      | .createPaSync => err = 0 → s.semPerSync.count = 0
      | .deletePaSync _ => err ≠ 0
      | _ => True
  | .synced sync =>
      match s.pc with
      | .waitPerSync own => sync = own ∨ s.semPerSync.count ≠ 0
      | _ => True
  | .terminated sync =>
      match s.pc with
      | .waitPerSync own => sync = own → s.semPerSync.count = 0
      | .waitBigInfo own => sync = own → s.semPerBigInfo.count = 0
      | .isoBigSync own => sync ≠ own
      | .deleteSync own _ _ => sync ≠ own
      | _ => True
  | .biginfo _ _ =>
      match s.pc with
      | .waitBigInfo own => .terminated own ∈ s.log → s.biginfoReceived = true
      | _ => True
  | _ => True

instance (s : App) (a : Act) : Decidable (KeepsSync s a) := by
  induction a using Act.casesOn <;> dsimp only [KeepsSync] <;>
    first
      | infer_instance
      | (generalize s.pc = pc; induction pc using Pc.casesOn <;> infer_instance)

/-- The guard of the runs in which every step keeps the sync. -/
def keepsSync (s : App) (a : Act) : Bool := decide (KeepsSync s a)

/-! ## The invariant -/

/-- Callbacks and deletes are of syncs that were created. -/
def OnMade (past : List Event) : Event → Prop
  | .synced sync => .created sync ∈ past
  | .terminated sync => .created sync ∈ past
  | .deleted sync => .created sync ∈ past
  | _ => True

structure Sound (log : List Event) : Prop where
  usable : Always OnUsable log
  made : Always OnMade log

/-- The thread waits for the synced callback of this sync; `sem_per_sync` is given
exactly when that callback has run. -/
structure Awaits (log : List Event) (given : Nat) (sync : Sync) : Prop where
  created : .created sync ∈ log
  kept : .deleted sync ∉ log
  answered : given ≠ 0 → .synced sync ∈ log ∧ .terminated sync ∉ log
  called : .synced sync ∈ log → given ≠ 0

/-- The sync was established, and `per_adv_lost` tells whether it was terminated. -/
structure Owned (log : List Event) (perAdvLost : Bool) (sync : Sync) : Prop where
  created : .created sync ∈ log
  synced : .synced sync ∈ log
  awaited : .awaited sync ∈ log
  kept : .deleted sync ∉ log
  alive : perAdvLost = false → .terminated sync ∉ log

/-- What holds of the sync where the thread stands. -/
def Place (s : App) : Pc → Prop
  | .waitPerSync sync => Awaits s.log s.semPerSync.count sync
  | .deletePaSync sync => .created sync ∈ s.log
  | .waitBigInfo sync =>
      Owned s.log s.perAdvLost sync ∧ (s.semPerBigInfo.count ≠ 0 → .terminated sync ∉ s.log)
  | .isoBigSync sync => Usable s.log sync
  | .waitBigSync sync _ => Owned s.log s.perAdvLost sync
  | .countBigSync sync _ => Owned s.log s.perAdvLost sync
  | .waitBigSyncLost sync _ => Owned s.log s.perAdvLost sync
  | .cleanup sync _ _ => Owned s.log s.perAdvLost sync
  | .deleteSync sync _ _ => Usable s.log sync
  | _ => True

structure SyncInv (s : App) : Prop where
  sound : Sound s.log
  place : Place s s.pc

variable {s t : App} {sync : Sync} {log : List Event} {e : Event} {lost : Bool}

namespace Sound

theorem snoc (sound : Sound log) (usable : OnUsable log e) (made : OnMade log e) :
    Sound (log ++ [e]) :=
  ⟨always_snoc.mpr ⟨sound.usable, usable⟩, always_snoc.mpr ⟨sound.made, made⟩⟩

/-- Nothing was observed of a sync that is not created. -/
theorem unseen (sound : Sound log) (fresh : .created sync ∉ log) :
    .synced sync ∉ log ∧ .terminated sync ∉ log ∧ .deleted sync ∉ log := by
  have unmade (e : Event) (asks : ∀ past, OnMade past e → .created sync ∈ past) : e ∉ log := by
    intro seen
    obtain ⟨past, before, made⟩ := sound.made.of_mem seen
    exact fresh (before.subset (asks past made))
  exact ⟨unmade _ fun _ made => made, unmade _ fun _ made => made, unmade _ fun _ made => made⟩

end Sound

/-! ## One sync, one observation more -/

/-- The observation is no end of this sync. -/
def Event.Spares (sync : Sync) (e : Event) : Prop := e ≠ .deleted sync ∧ e ≠ .terminated sync

theorem Usable.snoc (usable : Usable log sync) (spared : e.Spares sync) :
    Usable (log ++ [e]) sync where
  created := List.mem_append_left _ usable.created
  synced := List.mem_append_left _ usable.synced
  awaited := List.mem_append_left _ usable.awaited
  kept := by simpa [usable.kept] using spared.1.symm
  alive := by simpa [usable.alive] using spared.2.symm

theorem Usable.owned (usable : Usable log sync) : Owned log lost sync :=
  ⟨usable.created, usable.synced, usable.awaited, usable.kept, fun _ => usable.alive⟩

theorem Owned.usable (owned : Owned log false sync) : Usable log sync :=
  ⟨owned.created, owned.synced, owned.awaited, owned.kept, owned.alive rfl⟩

theorem Owned.snoc (owned : Owned log lost sync) (spared : e.Spares sync) :
    Owned (log ++ [e]) lost sync where
  created := List.mem_append_left _ owned.created
  synced := List.mem_append_left _ owned.synced
  awaited := List.mem_append_left _ owned.awaited
  kept := by simpa [owned.kept] using spared.1.symm
  alive here := by simpa [owned.alive here] using spared.2.symm

/-- A termination, which `per_adv_lost` tells of. -/
theorem Owned.terminated (owned : Owned log lost sync) (other : Sync) :
    Owned (log ++ [Event.terminated other]) true sync where
  created := List.mem_append_left _ owned.created
  synced := List.mem_append_left _ owned.synced
  awaited := List.mem_append_left _ owned.awaited
  kept := by simp [owned.kept]
  alive lost := by cases lost

/-! ## The thread -/

/-- A code that is checked, and the place the thread goes on to. -/
theorem syncInv_checked (sound : Sound s.log) (err : Int) {pc : Pc} (place : Place s pc) :
    SyncInv (if err ≠ 0 then s.ret err else { s with pc }) := by
  split
  · exact ⟨sound.snoc (e := .returned err) trivial trivial, trivial⟩
  · cases pc <;> exact ⟨sound, place⟩

theorem syncInv_createPaSync (sound : Sound s.log) {err : Int}
    (fresh : err = 0 → .created sync ∉ s.log) (unanswered : err = 0 → s.semPerSync.count = 0) :
    SyncInv (createPaSync s err sync) := by
  have called : Sound (s.log ++ [Event.perAdvSyncCreate (perAdvSyncParam s)]) :=
    sound.snoc trivial trivial
  unfold createPaSync
  dsimp only
  split
  · rename_i failed
    have returned : Sound (_ ++ [Event.createPaSync none err]) :=
      called.snoc (fun zero => absurd zero failed) trivial
    exact ⟨returned.snoc (e := .returned err) trivial trivial, trivial⟩
  · rename_i zero
    rw [not_not] at zero
    obtain ⟨notSynced, -, notDeleted⟩ := sound.unseen (fresh zero)
    refine ⟨called.snoc (e := .created sync) trivial trivial, ?_, ?_, ?_, ?_⟩
    · simp
    · simpa using notDeleted
    · intro given
      exact absurd (unanswered zero) given
    · intro synced
      exact absurd (by simpa using synced) notSynced

/-- `create_pa_sync` returns an error, or a sync that it may call established. -/
theorem syncInv_createPaSyncReturns (sound : Sound s.log) {err : Int}
    (usable : err = 0 → Usable s.log sync) : SyncInv (createPaSyncReturns s sync err) := by
  have returned : Sound (s.log ++ [Event.createPaSync (some sync) err]) :=
    sound.snoc (fun zero => ⟨sync, rfl, usable zero⟩) trivial
  unfold createPaSyncReturns
  dsimp only
  split
  · exact ⟨returned.snoc (e := .returned err) trivial trivial, trivial⟩
  · rename_i zero
    have still : Usable (s.log ++ [Event.createPaSync (some sync) err]) sync :=
      (usable (not_not.mp zero)).snoc (by simp [Event.Spares])
    exact ⟨returned, still.owned, fun _ => still.alive⟩

theorem syncInv_perSyncTaken (sound : Sound s.log) {err : Int} (created : .created sync ∈ s.log)
    (answered : err = 0 →
      .synced sync ∈ s.log ∧ .deleted sync ∉ s.log ∧ .terminated sync ∉ s.log) :
    SyncInv (perSyncTaken s sync err) := by
  unfold perSyncTaken
  split
  · exact ⟨sound, created⟩
  · rename_i zero
    obtain ⟨synced, kept, alive⟩ := answered (not_not.mp zero)
    refine syncInv_createPaSyncReturns (sound.snoc (e := .awaited sync) trivial trivial) fun _ => ?_
    constructor <;> simp [created, synced, kept, alive]

theorem syncInv_bigInfoTaken (sound : Sound s.log) {err : Int}
    (owned : Owned s.log s.perAdvLost sync) (alive : err = 0 → .terminated sync ∉ s.log) :
    SyncInv (bigInfoTaken s sync err) := by
  unfold bigInfoTaken
  split
  · exact ⟨sound, owned⟩
  · rename_i zero
    exact ⟨sound, owned.created, owned.synced, owned.awaited, owned.kept, alive (not_not.mp zero)⟩

theorem syncInv_isoBigSync (sound : Sound s.log) (usable : Usable s.log sync) (err : Int)
    (big : Big) : SyncInv (isoBigSync s sync err big) := by
  have called := sound.snoc (e := .isoBigSync sync (bigSyncParam s)) usable trivial
  have still := usable.snoc (e := .isoBigSync sync (bigSyncParam s)) (by simp [Event.Spares])
  unfold isoBigSync
  dsimp only
  split
  · exact ⟨called, still.owned⟩
  · refine ⟨called.snoc (e := .bigSynced big (bigSyncParam s).numBis) trivial trivial, ?_⟩
    exact (still.snoc (by simp [Event.Spares])).owned

theorem syncInv_bigSyncTaken (sound : Sound s.log) (owned : Owned s.log s.perAdvLost sync)
    (err : Int) (big : Big) : SyncInv (bigSyncTaken s sync big err) := by
  unfold bigSyncTaken
  split <;> exact ⟨sound, owned⟩

theorem syncInv_countBigSync (sound : Sound s.log) (owned : Owned s.log s.perAdvLost sync)
    (big : Big) : SyncInv (countBigSync s sync big) :=
  ⟨sound.snoc (e := .counted big) trivial trivial, owned.snoc (by simp [Event.Spares])⟩

theorem syncInv_bigSyncLostTaken (sound : Sound s.log) (owned : Owned s.log s.perAdvLost sync)
    (err : Int) (big : Big) : SyncInv (bigSyncLostTaken s sync big err) := by
  unfold bigSyncLostTaken
  split
  · exact ⟨sound.snoc (e := .returned err) trivial trivial, trivial⟩
  · exact ⟨sound.snoc (e := .lost big) trivial trivial, owned.snoc (by simp [Event.Spares])⟩

theorem syncInv_cleanup (sound : Sound s.log) (owned : Owned s.log s.perAdvLost sync)
    (big : Option Big) (cause : Int) : SyncInv (cleanup s sync big cause) := by
  unfold cleanup
  split
  · exact ⟨sound, trivial⟩
  · rename_i here
    rw [Bool.not_eq_true] at here
    rw [here] at owned
    exact ⟨sound, owned.usable⟩

theorem syncInv_deleteSync (sound : Sound s.log) (usable : Usable s.log sync)
    (big : Option Big) (cause paErr : Int) : SyncInv (deleteSync s sync big cause paErr) := by
  have called := sound.snoc (e := .cleanupDelete sync) usable trivial
  unfold deleteSync
  dsimp only
  split
  · refine ⟨called.snoc (e := .deleted sync) trivial ?_, trivial⟩
    exact List.mem_append_left _ usable.created
  · exact ⟨called, trivial⟩

theorem syncInv_cleanupReturns (sound : Sound s.log) (cause paErr bigErr : Int) :
    SyncInv (cleanupReturns s cause paErr bigErr) :=
  ⟨sound.snoc (e := .returned _) trivial trivial, trivial⟩

theorem syncInv_cleanupBig (sound : Sound s.log) (big : Option Big) (cause paErr : Int) :
    SyncInv (cleanupBig s big cause paErr) := by
  unfold cleanupBig
  split
  · split
    · exact syncInv_cleanupReturns sound cause paErr 0
    · exact ⟨sound, trivial⟩
  · exact syncInv_cleanupReturns sound cause paErr 0

theorem syncInv_next (inv : SyncInv s) {err : Int} {handle : Nat}
    (keeps : KeepsSync s (.thread err handle)) (taken : next s err handle = some t) :
    SyncInv t := by
  obtain ⟨sound, place⟩ := inv
  unfold next at taken
  unfold KeepsSync at keeps
  cases here : s.pc <;> simp only [here] at taken place keeps
  case idle => cases taken; exact ⟨sound, trivial⟩
  case resetSems => cases taken; exact ⟨sound, trivial⟩
  case startScan => cases taken; exact syncInv_checked sound err trivial
  case waitPerAdv =>
      obtain ⟨sem, -, rfl⟩ := Option.map_eq_some_iff.mp taken
      exact syncInv_checked (s := { s with semPerAdv := sem }) sound err trivial
  case stopScan => cases taken; exact syncInv_checked sound err trivial
  case createPaSync =>
      simp only [Option.ite_none_left_eq_some, not_and, Option.some.injEq] at taken
      obtain ⟨fresh, rfl⟩ := taken
      exact syncInv_createPaSync sound fresh keeps
  case waitPerSync sync =>
      obtain ⟨sem, took, rfl⟩ := Option.map_eq_some_iff.mp taken
      refine syncInv_perSyncTaken (s := { s with semPerSync := sem }) sound place.created ?_
      intro zero
      rcases kSemTake_eq_some.mp took with ⟨-, given⟩ | ⟨failed, -⟩
      · obtain ⟨synced, alive⟩ := place.answered (by omega)
        exact ⟨synced, place.kept, alive⟩
      · exact absurd zero failed
  case deletePaSync sync =>
      cases taken
      unfold deletePaSync
      rw [if_pos keeps]
      exact syncInv_createPaSyncReturns sound fun zero => absurd zero keeps
  case waitBigInfo sync =>
      obtain ⟨sem, took, rfl⟩ := Option.map_eq_some_iff.mp taken
      refine syncInv_bigInfoTaken (s := { s with semPerBigInfo := sem }) sound place.1 ?_
      intro zero
      rcases kSemTake_eq_some.mp took with ⟨-, given⟩ | ⟨failed, -⟩
      · exact place.2 (by omega)
      · exact absurd zero failed
  case isoBigSync sync =>
      simp only [Option.ite_none_left_eq_some, Option.some.injEq] at taken
      obtain ⟨-, rfl⟩ := taken
      exact syncInv_isoBigSync sound place err handle
  case waitBigSync sync big =>
      obtain ⟨sem, -, rfl⟩ := Option.map_eq_some_iff.mp taken
      exact syncInv_bigSyncTaken (s := { s with semBigSync := sem }) sound place err big
  case countBigSync sync big => cases taken; exact syncInv_countBigSync sound place big
  case waitBigSyncLost sync big =>
      obtain ⟨sem, -, rfl⟩ := Option.map_eq_some_iff.mp taken
      exact syncInv_bigSyncLostTaken (s := { s with semBigSyncLost := sem }) sound place err big
  case cleanup sync big cause => cases taken; exact syncInv_cleanup sound place big cause
  case deleteSync sync big cause => cases taken; exact syncInv_deleteSync sound place big cause err
  case cleanupBig big cause paErr => cases taken; exact syncInv_cleanupBig sound big cause paErr
  case terminateBig big cause paErr =>
      cases taken
      exact syncInv_cleanupReturns sound cause paErr err

/-! ## The callbacks -/

theorem Place.of_same {pc : Pc} (place : Place s pc) (log : t.log = s.log)
    (sem : t.semPerSync = s.semPerSync) (info : t.semPerBigInfo = s.semPerBigInfo)
    (lost : t.perAdvLost = s.perAdvLost) : Place t pc := by
  cases pc <;> simp only [Place, log, sem, info, lost] <;> exact place

/-- An observation that is no end of a sync, nor the callback that is waited for. -/
theorem Place.snoc {pc : Pc} (place : Place s pc) (spared : ∀ sync, e.Spares sync)
    (unawaited : ∀ sync, pc = .waitPerSync sync → e ≠ .synced sync) : Place (s.note e) pc := by
  cases pc <;> simp only [App.note, Place] at place ⊢
  case waitPerSync sync =>
    refine ⟨List.mem_append_left _ place.created, ?_, fun given => ?_, fun synced => ?_⟩
    · simpa [place.kept] using (spared sync).1.symm
    · obtain ⟨synced, alive⟩ := place.answered given
      exact ⟨List.mem_append_left _ synced, by simpa [alive] using (spared sync).2.symm⟩
    · exact place.called (by simpa [(unawaited sync rfl).symm] using synced)
  case deletePaSync sync => exact List.mem_append_left _ place
  case waitBigInfo sync =>
    refine ⟨place.1.snoc (spared sync), fun given => ?_⟩
    simpa [place.2 given] using (spared sync).2.symm
  case isoBigSync sync => exact place.snoc (spared sync)
  case waitBigSync sync big => exact place.snoc (spared sync)
  case countBigSync sync big => exact place.snoc (spared sync)
  case waitBigSyncLost sync big => exact place.snoc (spared sync)
  case cleanup sync big cause => exact place.snoc (spared sync)
  case deleteSync sync big cause => exact place.snoc (spared sync)

theorem syncInv_scanRecv (inv : SyncInv s) (report : ScanReport) : SyncInv (scanRecv s report) := by
  unfold scanRecv
  split
  · exact inv
  · split
    · exact ⟨inv.sound, inv.place.of_same rfl rfl rfl rfl⟩
    · exact inv

theorem syncInv_syncCb (inv : SyncInv s) (created : .created sync ∈ s.log)
    (alive : .terminated sync ∉ s.log) (keeps : KeepsSync s (.synced sync)) :
    SyncInv (syncCb s sync) := by
  refine ⟨inv.sound.snoc (e := .synced sync) trivial created, ?_⟩
  have place := inv.place
  unfold KeepsSync at keeps
  simp only [syncCb, App.note]
  cases here : s.pc <;> rw [here] at place
  case waitPerSync own =>
    simp only [here] at keeps
    refine ⟨List.mem_append_left _ place.created, ?_, fun _ => ?_, fun _ => ?_⟩
    · simpa using place.kept
    · rcases keeps with rfl | given
      · exact ⟨by simp, by simpa using alive⟩
      · obtain ⟨synced, still⟩ := place.answered given
        exact ⟨List.mem_append_left _ synced, by simpa using still⟩
    · exact Nat.ne_of_gt (s.semPerSync.give_pos Nat.one_pos)
  all_goals
    have after := Place.snoc (e := .synced sync) place (fun _ => by simp [Event.Spares])
      (fun _ impossible => by cases impossible)
    exact after

theorem syncInv_termCb (inv : SyncInv s) (created : .created sync ∈ s.log)
    (keeps : KeepsSync s (.terminated sync)) : SyncInv (termCb s sync) := by
  refine ⟨inv.sound.snoc (e := .terminated sync) trivial created, ?_⟩
  have place := inv.place
  have spares {own : Sync} (other : sync ≠ own) : (Event.terminated sync).Spares own := by
    simpa [Event.Spares] using other
  unfold KeepsSync at keeps
  simp only [termCb, App.note]
  cases here : s.pc <;> rw [here] at place <;> simp only [here] at keeps <;> simp only [Place]
  case waitPerSync own =>
    refine ⟨List.mem_append_left _ place.created, ?_, fun given => ?_, fun synced => ?_⟩
    · simpa using place.kept
    · have other : sync ≠ own := fun same => given (keeps same)
      obtain ⟨synced, still⟩ := place.answered given
      exact ⟨List.mem_append_left _ synced, by simpa [still] using other.symm⟩
    · exact place.called (by simpa using synced)
  case deletePaSync own => exact List.mem_append_left _ place
  case waitBigInfo own =>
    refine ⟨place.1.terminated sync, fun given => ?_⟩
    have other : sync ≠ own := fun same => given (keeps same)
    simpa [place.2 given] using other.symm
  case isoBigSync own => exact Usable.snoc place (spares keeps)
  case waitBigSync own big => exact place.terminated sync
  case countBigSync own big => exact place.terminated sync
  case waitBigSyncLost own big => exact place.terminated sync
  case cleanup own big cause => exact place.terminated sync
  case deleteSync own big cause => exact Usable.snoc place (spares keeps)

theorem syncInv_biginfoCb (inv : SyncInv s) (maxChan : Nat) (info : BigInfo)
    (keeps : KeepsSync s (.biginfo sync info)) : SyncInv (biginfoCb maxChan s info) := by
  unfold biginfoCb
  split
  · exact inv
  · rename_i first
    refine ⟨inv.sound, ?_⟩
    have place := inv.place
    unfold KeepsSync at keeps
    cases here : s.pc <;> rw [here] at place <;> simp only [here] at keeps <;> simp only [Place]
    case waitBigInfo own => exact ⟨place.1, fun _ terminated => first (keeps terminated)⟩
    all_goals exact place

theorem step_syncInv {maxChan : Nat} {a : Act} (inv : SyncInv s) (keeps : KeepsSync s a)
    (taken : step maxChan s a = some t) : SyncInv t := by
  cases a with
  | thread err handle => exact syncInv_next inv keeps taken
  | scanRecv report =>
      simp only [step, Option.ite_none_right_eq_some, Option.some.injEq] at taken
      obtain ⟨-, rfl⟩ := taken
      exact syncInv_scanRecv inv report
  | synced sync =>
      simp only [step, Option.ite_none_right_eq_some, Option.some.injEq] at taken
      obtain ⟨⟨created, -, alive, -⟩, rfl⟩ := taken
      exact syncInv_syncCb inv created alive keeps
  | terminated sync =>
      simp only [step, Option.ite_none_right_eq_some, Option.some.injEq] at taken
      obtain ⟨⟨created, -⟩, rfl⟩ := taken
      exact syncInv_termCb inv created keeps
  | biginfo sync info =>
      simp only [step, Option.ite_none_right_eq_some, Option.some.injEq] at taken
      obtain ⟨-, rfl⟩ := taken
      exact syncInv_biginfoCb inv maxChan info keeps
  | connected big chan now =>
      simp only [step, Option.ite_none_right_eq_some, Option.some.injEq] at taken
      obtain ⟨-, rfl⟩ := taken
      refine ⟨inv.sound.snoc (e := .connected big chan) trivial trivial, ?_⟩
      exact (inv.place.snoc (e := .connected big chan) (by simp [Event.Spares]) (by simp)).of_same
        rfl rfl rfl rfl
  | disconnected big chan now =>
      simp only [step, Option.ite_none_right_eq_some, Option.some.injEq] at taken
      obtain ⟨-, rfl⟩ := taken
      refine ⟨inv.sound.snoc (e := .disconnected big chan _) trivial trivial, ?_⟩
      exact (inv.place.snoc (e := .disconnected big chan s.bigSyncCount.toNat)
        (by simp [Event.Spares]) (by simp)).of_same rfl rfl rfl rfl

theorem reachable_syncInv {maxChan : Nat}
    (run : Reachable (step maxChan) (· = start) keepsSync s) : SyncInv s := by
  apply run.invariant
  · rintro s rfl
    exact ⟨⟨always_nil, always_nil⟩, trivial⟩
  · intro s a t inv met taken
    exact step_syncInv inv (of_decide_eq_true met) taken

/-- **No dead sync is used** in the runs whose steps keep the sync of the run. -/
theorem sync_usable {maxChan : Nat} (run : Reachable (step maxChan) (· = start) keepsSync s) :
    Always OnUsable s.log := (reachable_syncInv run).sound.usable

/-! ## A step that does not keep the sync -/

/-- The steps of the thread. -/
def Act.IsThread : Act → Prop
  | .thread _ _ => True
  | _ => False

/-- The thread alone can get to a use that the law forbids. -/
def Misuses (maxChan : Nat) (s : App) : Prop :=
  ∃ w, Leads (step maxChan) Act.IsThread s w ∧ ¬ Always OnUsable w.log

variable {maxChan : Nat}

/-- `sem_per_sync` was given, but not for a sync that is established. -/
theorem misuses_of_take (sync : Sync) (here : s.pc = .waitPerSync sync)
    (given : s.semPerSync.count ≠ 0)
    (unusable : .synced sync ∉ s.log ∨ .terminated sync ∈ s.log) : Misuses maxChan s := by
  obtain ⟨sem, took⟩ : ∃ sem, s.semPerSync.take = some sem := by
    unfold Semaphore.take
    rw [if_neg given]
    exact ⟨_, rfl⟩
  refine ⟨perSyncTaken { s with semPerSync := sem } sync 0,
    .next (a := .thread 0 0) .here trivial ?_, fun always => ?_⟩
  · rw [step, next, here]
    simp only [kSemTake, if_true, took, Option.map_some]
  · obtain ⟨own, same, usable⟩ := (always_snoc.mp always).2 rfl
    cases same
    rcases unusable with unsynced | dead
    · exact unsynced (by simpa using usable.synced)
    · exact usable.alive (List.mem_append_left _ dead)

/-- `bt_iso_big_sync` is next, and the sync was terminated. -/
theorem misuses_of_call (here : s.pc = .isoBigSync sync) (dead : .terminated sync ∈ s.log) :
    Misuses maxChan s := by
  refine ⟨isoBigSync s sync 1 0, .next (a := .thread 1 0) .here trivial ?_, fun always => ?_⟩
  · rw [step, next, here]
    exact if_neg fun both => absurd both.1 (by decide)
  · exact (always_snoc.mp always).2.alive dead

/-- The BIGInfo is there, and the sync was terminated. -/
theorem misuses_of_bigInfo (here : s.pc = .waitBigInfo sync) (given : s.semPerBigInfo.count ≠ 0)
    (dead : .terminated sync ∈ s.log) : Misuses maxChan s := by
  obtain ⟨sem, took⟩ : ∃ sem, s.semPerBigInfo.take = some sem := by
    unfold Semaphore.take
    rw [if_neg given]
    exact ⟨_, rfl⟩
  have taken : step maxChan s (.thread 0 0) =
      some (bigInfoTaken { s with semPerBigInfo := sem } sync 0) := by
    rw [step, next, here]
    simp only [kSemTake, if_true, took, Option.map_some]
  have next : Misuses maxChan (bigInfoTaken { s with semPerBigInfo := sem } sync 0) :=
    misuses_of_call rfl dead
  obtain ⟨w, rest, misused⟩ := next
  exact ⟨w, .trans (.next (a := .thread 0 0) .here trivial taken) rest, misused⟩

/-- The delete in `cleanup` is next, and the sync was terminated. -/
theorem misuses_of_delete {big : Option Big} {cause : Int}
    (here : s.pc = .deleteSync sync big cause) (dead : .terminated sync ∈ s.log) :
    Misuses maxChan s := by
  refine ⟨deleteSync s sync big cause 1, .next (a := .thread 1 0) .here trivial ?_,
    fun always => ?_⟩
  · rw [step, next, here]
  · exact (always_snoc.mp always).2.alive dead

/-- **Any other step misuses a sync**, or lets the thread do so. -/
theorem misused_after {a : Act} (run : Reachable (step maxChan) (· = start) keepsSync s)
    (taken : step maxChan s a = some t) (kept : ¬ KeepsSync s a) : Misuses maxChan t := by
  obtain ⟨sound, place⟩ := reachable_syncInv run
  unfold KeepsSync at kept
  cases a with
  | thread err handle =>
      simp only [step, next] at taken
      cases here : s.pc <;> simp only [here, not_true, Classical.not_imp, not_not] at kept taken
      case createPaSync =>
        obtain ⟨rfl, given⟩ := kept
        simp only [Option.ite_none_left_eq_some, true_and, Option.some.injEq] at taken
        obtain ⟨fresh, rfl⟩ := taken
        refine misuses_of_take handle rfl given (Or.inl ?_)
        simpa [createPaSync] using (sound.unseen fresh).1
      case deletePaSync sync =>
        cases taken
        refine ⟨_, .here, fun always => ?_⟩
        rw [deletePaSync, if_neg (not_not.mpr kept)] at always
        obtain ⟨own, same, usable⟩ := (always_snoc.mp always).2 rfl
        cases same
        exact usable.kept (by simp)
  | synced sync =>
      simp only [step, Option.ite_none_right_eq_some, Option.some.injEq] at taken
      obtain ⟨-, rfl⟩ := taken
      cases here : s.pc <;> simp only [here, not_true] at kept
      case waitPerSync own =>
        obtain ⟨other, none_⟩ := not_or.mp kept
        rw [not_not] at none_
        rw [here] at place
        refine misuses_of_take own here ?_ (Or.inl fun synced => ?_)
        · exact Nat.ne_of_gt (s.semPerSync.give_pos Nat.one_pos)
        · have before : .synced own ∈ s.log := by simpa [syncCb, Ne.symm other] using synced
          exact place.called before none_
  | terminated sync =>
      simp only [step, Option.ite_none_right_eq_some, Option.some.injEq] at taken
      obtain ⟨-, rfl⟩ := taken
      have dead : .terminated sync ∈ (termCb s sync).log := by simp [termCb]
      cases here : s.pc <;> simp only [here, not_true, Classical.not_imp, not_not] at kept
      case waitPerSync own =>
        obtain ⟨rfl, given⟩ := kept
        exact misuses_of_take sync here given (Or.inr dead)
      case waitBigInfo own =>
        obtain ⟨rfl, given⟩ := kept
        exact misuses_of_bigInfo here given dead
      case isoBigSync own =>
        obtain rfl := kept
        exact misuses_of_call here dead
      case deleteSync own big cause =>
        obtain rfl := kept
        exact misuses_of_delete here dead
  | biginfo sync info =>
      simp only [step, Option.ite_none_right_eq_some, Option.some.injEq] at taken
      obtain ⟨-, rfl⟩ := taken
      cases here : s.pc <;> simp only [here, not_true, Classical.not_imp] at kept
      case waitBigInfo own =>
        obtain ⟨dead, first⟩ := kept
        rw [biginfoCb, if_neg first]
        refine misuses_of_bigInfo here ?_ dead
        exact Nat.ne_of_gt (s.semPerBigInfo.give_pos Nat.one_pos)
  | scanRecv report => exact absurd trivial kept
  | connected big chan now => exact absurd trivial kept
  | disconnected big chan now => exact absurd trivial kept

/-! ## A whole run, and a timeout -/

/-- The sync of a run is used twice. -/
theorem sync_usable_session :
    ∃ s, Reachable (step 1) (· = start) keepsSync s ∧ .cleanupDelete 0 ∈ s.log ∧
      Always OnUsable s.log := by
  have found : (exec (step 1) keepsSync start (session 0)).any
      (fun s => decide (.cleanupDelete 0 ∈ s.log)) = true := by
    decide +kernel
  obtain ⟨s, run, deleted⟩ : ∃ s, Reachable (step 1) (· = start) keepsSync s ∧ _ = true :=
    exists_reachable_of_exec rfl found
  exact ⟨s, run, of_decide_eq_true deleted, sync_usable run⟩

/-- The wait for the synced callback times out and the delete succeeds; no BIGInfo comes
either. -/
def timeoutRun : List Act :=
  toPerSync 0 ++ [Act.thread (-11) 0, .thread 0 0, .thread (-11) 0, .thread 0 0, .thread 0 0]

/-- **A timeout is taken for a sync**: the sync that `create_pa_sync` deleted is deleted
once more in `cleanup`. -/
theorem deleted_twice :
    ¬ ∀ s, Reachable (step 1) (· = start) unguarded s → Always OnUsable s.log := by
  intro syncUsable
  have found : (exec (step 1) unguarded start timeoutRun).any (fun s =>
      decide (.cleanupDelete 0 ∈ s.log ∧ .synced 0 ∉ s.log)) = true := by
    decide +kernel
  obtain ⟨s, run, holds⟩ : ∃ s, Reachable (step 1) (· = start) unguarded s ∧ _ = true :=
    exists_reachable_of_exec rfl found
  obtain ⟨deleted, unsynced⟩ := of_decide_eq_true holds
  obtain ⟨past, before, usable⟩ := (syncUsable s run).of_mem deleted
  exact unsynced (before.subset usable.synced)

end NcsExp.IsoReceiver
