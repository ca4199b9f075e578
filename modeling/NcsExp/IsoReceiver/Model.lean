/-
# NcsExp.IsoReceiver.Model -- the ISO receiver's thread and its callbacks

`test_run_receiver` of `receiver.c`, run again and again by `main`: it finds a
broadcaster, syncs to its periodic advertising and to its BIG, waits until the BIG
sync is lost and cleans up.  The thread stands before one call at a time (`Pc`), and
`next` is what it does with the code the call returns; between any two of its steps
the callbacks of the host may run.

A handle is a number that no handle before had.  The host reports a periodic
advertising sync at most once as synced and at most once as terminated, BIGInfo only
for one that is synced, and each channel of a BIG at most once as connected and once
as disconnected; a sync that is not established is terminated, and a channel
disconnected, without having been synced or connected.
-/
import NcsExp.Theory.Runs
import NcsExp.Theory.History
import NcsExp.Theory.Semaphore

namespace NcsExp.IsoReceiver

open NcsExp.Theory

set_option autoImplicit false

/-! ## Data -/

/-- A `struct bt_le_per_adv_sync`. -/
abbrev Sync : Type := Nat

/-- A `struct bt_iso_big`. -/
abbrev Big : Type := Nat

def PA_RETRY_COUNT : Nat := 6
def ISO_RETRY_COUNT : Nat := 10

/-- `CONFIG_BT_DEVICE_NAME`. -/
def DEVICE_NAME : List Char := "ISO Broadcast benchmark nrf21540".toList

/-- `BT_INTERVAL_TO_MS`. -/
def btIntervalToMs (interval : UInt16) : UInt16 := .ofNat (interval.toNat * 5 / 4)

/-- What `scan_recv` looks at; `name` is what `data_cb` finds. -/
structure ScanReport where
  name : List Char
  addr : Nat
  sid : UInt8
  interval : UInt16

/-- `per_addr`, `per_sid` and `per_interval_ms`. -/
structure Periodic where
  addr : Nat
  sid : UInt8
  intervalMs : UInt16
  deriving DecidableEq

/-- The parts of `struct bt_iso_biginfo` that are kept. -/
structure BigInfo where
  numBis : UInt8
  isoInterval : UInt16

/-- `struct bt_le_per_adv_sync_param`. -/
structure PerAdvSyncParam where
  addr : Nat
  options : UInt32
  sid : UInt8
  skip : UInt16
  timeout : UInt16
  deriving DecidableEq

/-- `struct bt_iso_big_sync_param`, without its channels. -/
structure BigSyncParam where
  numBis : UInt8
  bisBitfield : UInt32
  mse : UInt8
  syncTimeout : UInt16
  deriving DecidableEq

/-- Where the thread stands.  `cause` is the error for which `cleanup` is called, or 0;
`paErr` is the local `pa_err`. -/
inductive Pc
  | idle
  | resetSems
  | startScan
  | waitPerAdv
  | stopScan
  | createPaSync
  | waitPerSync (sync : Sync)
  | deletePaSync (sync : Sync)
  | waitBigInfo (sync : Sync)
  | isoBigSync (sync : Sync)
  | waitBigSync (sync : Sync) (big : Big)
  | countBigSync (sync : Sync) (big : Big)
  | waitBigSyncLost (sync : Sync) (big : Big)
  | cleanup (sync : Sync) (big : Option Big) (cause : Int)
  | deleteSync (sync : Sync) (big : Option Big) (cause : Int)
  | cleanupBig (big : Option Big) (cause paErr : Int)
  | terminateBig (big : Big) (cause paErr : Int)
  deriving DecidableEq

/-- What is observed.  `perAdvSyncCreate`, `isoBigSync` and `cleanupDelete` are calls,
`created`, `bigSynced` and `deleted` calls that returned 0; `awaited` and `lost` are
the takes of `sem_per_sync` and `sem_big_sync_lost`, `counted` is the increment of
`big_sync_count`; `createPaSync` and `returned` are returns.  `disconnected` has the
value by which `iso_disconnected` divides. -/
inductive Event
  | perAdvSyncCreate (param : PerAdvSyncParam)
  | created (sync : Sync)
  | synced (sync : Sync)
  | terminated (sync : Sync)
  | awaited (sync : Sync)
  | deleted (sync : Sync)
  | createPaSync (sync : Option Sync) (err : Int)
  | isoBigSync (sync : Sync) (param : BigSyncParam)
  | bigSynced (big : Big) (numBis : UInt8)
  | connected (big : Big) (chan : Nat)
  | counted (big : Big)
  | disconnected (big : Big) (chan : Nat) (count : Nat)
  | lost (big : Big)
  | cleanupDelete (sync : Sync)
  | returned (err : Int)
  deriving DecidableEq

/-- The static variables of `receiver.c`, and the thread.  `averageDuration` and
`bigSyncStartTime` are the bits of the signed variables. -/
structure App where
  pc : Pc
  callbacksRegistered : Bool
  broadcasterFound : Bool
  perAdvLost : Bool
  bigSyncLost : Bool
  biginfoReceived : Bool
  periodic : Periodic
  isoIntervalMs : UInt16
  bisCount : UInt8
  bigSyncStartTime : UInt64
  bigSyncCount : UInt32
  averageDuration : UInt64
  semPerAdv : Semaphore 1
  semPerSync : Semaphore 1
  semPerSyncLost : Semaphore 1
  semPerBigInfo : Semaphore 1
  semBigSync : Semaphore 1
  semBigSyncLost : Semaphore 1
  log : List Event

/-- Before the first run. -/
def start : App where
  pc := .idle
  callbacksRegistered := false
  broadcasterFound := false
  perAdvLost := false
  bigSyncLost := false
  biginfoReceived := false
  periodic := ⟨0, 0, 0⟩
  isoIntervalMs := 0
  bisCount := 0
  bigSyncStartTime := 0
  bigSyncCount := 0
  averageDuration := 0
  semPerAdv := .empty
  semPerSync := .empty
  semPerSyncLost := .empty
  semPerBigInfo := .empty
  semBigSync := .empty
  semBigSyncLost := .empty
  log := []

namespace App

@[simp] def goto (s : App) (pc : Pc) : App := { s with pc }

@[simp] def note (s : App) (e : Event) : App := { s with log := s.log ++ [e] }

/-- `test_run_receiver` returns. -/
@[simp] def ret (s : App) (err : Int) : App := (s.note (.returned err)).goto .idle

end App

/-! ## The thread -/

inductive Timeout
  | msec
  | forever
  deriving DecidableEq

/-- `k_sem_take` of a semaphore that only this thread resets: without a timeout it
returns only once it has taken the semaphore. -/
def kSemTake (sem : Semaphore 1) (timeout : Timeout) (err : Int) : Option (Semaphore 1) :=
  if err = 0 then sem.take
  else if timeout = .msec ∧ sem.count = 0 then some sem
  else none

theorem kSemTake_eq_some {sem sem' : Semaphore 1} {timeout : Timeout} {err : Int} :
    kSemTake sem timeout err = some sem' ↔
      err = 0 ∧ sem.count = sem'.count + 1 ∨
        err ≠ 0 ∧ timeout = .msec ∧ sem.count = 0 ∧ sem = sem' := by
  unfold kSemTake
  split
  · rename_i zero
    simp [zero, Semaphore.take_eq_some]
  · rename_i nonzero
    simp [nonzero, and_assoc]

/-- `test_run_receiver`, lines 439-442. -/
def testRunReceiver (s : App) : App :=
  { s with
    broadcasterFound := false
    perAdvLost := false
    bigSyncLost := false
    biginfoReceived := false
    pc := .resetSems }

/-- `reset_sems` and the registration of the callbacks, lines 443-449. -/
def resetSems (s : App) : App :=
  { s with
    semPerAdv := .empty
    semPerSync := .empty
    semPerSyncLost := .empty
    semPerBigInfo := .empty
    semBigSync := .empty
    semBigSyncLost := .empty
    callbacksRegistered := true
    pc := .startScan }

/-- `start_scan`, lines 267-280, and its return. -/
def startScan (s : App) (err : Int) : App :=
  if err ≠ 0 then s.ret err else s.goto .waitPerAdv

/-- Lines 457-462, once `sem_per_adv` is taken or not. -/
def perAdvTaken (s : App) (err : Int) : App :=
  if err ≠ 0 then s.ret err else s.goto .stopScan

/-- `stop_scan`, lines 282-294, and its return. -/
def stopScan (s : App) (err : Int) : App :=
  if err ≠ 0 then s.ret err else s.goto .createPaSync

/-- `create_pa_sync` returns with a handle, lines 469-476. -/
def createPaSyncReturns (s : App) (sync : Sync) (err : Int) : App :=
  let s := s.note (.createPaSync (some sync) err)
  if err ≠ 0 then s.ret err else { s with bigSyncStartTime := 0, pc := .waitBigInfo sync }

/-- Lines 303-307. -/
def perAdvSyncParam (s : App) : PerAdvSyncParam where
  addr := s.periodic.addr
  options := 0
  sid := s.periodic.sid
  skip := 0
  timeout := .ofNat (s.periodic.intervalMs.toNat * PA_RETRY_COUNT / 10)

/-- `create_pa_sync`, lines 309-314. -/
def createPaSync (s : App) (err : Int) (sync : Sync) : App :=
  let s := s.note (.perAdvSyncCreate (perAdvSyncParam s))
  if err ≠ 0 then (s.note (.createPaSync none err)).ret err
  else (s.note (.created sync)).goto (.waitPerSync sync)

/-- `create_pa_sync` once `sem_per_sync` is taken or not, lines 317-319 and 332. -/
def perSyncTaken (s : App) (sync : Sync) (err : Int) : App :=
  if err ≠ 0 then s.goto (.deletePaSync sync)
  else createPaSyncReturns (s.note (.awaited sync)) sync 0

/-- `create_pa_sync`, lines 322-332. -/
def deletePaSync (s : App) (sync : Sync) (err : Int) : App :=
  if err ≠ 0 then createPaSyncReturns s sync err
  else createPaSyncReturns (s.note (.deleted sync)) sync 0

/-- `create_big_sync` returns an error, lines 478-482. -/
def createBigSyncFails (s : App) (sync : Sync) (big : Option Big) (err : Int) : App :=
  s.goto (.cleanup sync big err)

/-- `create_big_sync` once `sem_per_big_info` is taken or not, lines 357-361. -/
def bigInfoTaken (s : App) (sync : Sync) (err : Int) : App :=
  if err ≠ 0 then createBigSyncFails s sync none err else s.goto (.isoBigSync sync)

/-- The loop of lines 367-369. -/
def bisBitfield (numBis : Nat) : UInt32 :=
  (List.range numBis).foldl (fun field i => field ||| 1 <<< UInt32.ofNat (i + 1)) 0

/-- Lines 363-369. -/
def bigSyncParam (s : App) : BigSyncParam where
  numBis := s.bisCount
  bisBitfield := bisBitfield s.bisCount.toNat
  mse := 0
  syncTimeout :=
    .ofNat (max 0x000A (min (s.isoIntervalMs.toNat * ISO_RETRY_COUNT / 10) 0x4000))

/-- `create_big_sync`, lines 372-376. -/
def isoBigSync (s : App) (sync : Sync) (err : Int) (big : Big) : App :=
  let param := bigSyncParam s
  let s := s.note (.isoBigSync sync param)
  if err ≠ 0 then createBigSyncFails s sync none err
  else (s.note (.bigSynced big param.numBis)).goto (.waitBigSync sync big)

/-- `create_big_sync` once `sem_big_sync` is taken or not, lines 379-383. -/
def bigSyncTaken (s : App) (sync : Sync) (big : Big) (err : Int) : App :=
  if err ≠ 0 then createBigSyncFails s sync (some big) err else s.goto (.countBigSync sync big)

/-- `create_big_sync`, lines 386-388. -/
def countBigSync (s : App) (sync : Sync) (big : Big) : App :=
  ({ s with bigSyncCount := s.bigSyncCount + 1 }.note (.counted big)).goto
    (.waitBigSyncLost sync big)

/-- Lines 484-492, once `sem_big_sync_lost` is taken or not. -/
def bigSyncLostTaken (s : App) (sync : Sync) (big : Big) (err : Int) : App :=
  if err ≠ 0 then s.ret err
  else (s.note (.lost big)).goto (.cleanup sync (some big) 0)

/-- `cleanup`, line 396; `sync` is never NULL here. -/
def cleanup (s : App) (sync : Sync) (big : Option Big) (cause : Int) : App :=
  if s.perAdvLost then s.goto (.cleanupBig big cause 0) else s.goto (.deleteSync sync big cause)

/-- `cleanup`, lines 398-402. -/
def deleteSync (s : App) (sync : Sync) (big : Option Big) (cause paErr : Int) : App :=
  let s := s.note (.cleanupDelete sync)
  let s := if paErr = 0 then s.note (.deleted sync) else s
  s.goto (.cleanupBig big cause paErr)

/-- `cleanup` returns, lines 413-419, and `test_run_receiver` with it, or with the error
that came before. -/
def cleanupReturns (s : App) (cause paErr bigErr : Int) : App :=
  s.ret (if cause ≠ 0 then cause else if paErr ≠ 0 then paErr else bigErr)

/-- `cleanup`, line 405. -/
def cleanupBig (s : App) (big : Option Big) (cause paErr : Int) : App :=
  match big with
  | some big =>
      if s.bigSyncLost then cleanupReturns s cause paErr 0
      else s.goto (.terminateBig big cause paErr)
  | none => cleanupReturns s cause paErr 0

/-- `bt_iso_big_sync` gave this handle. -/
def Event.IsBigSynced (big : Big) : Event → Prop
  | .bigSynced b _ => b = big
  | _ => False

instance (big : Big) (e : Event) : Decidable (e.IsBigSynced big) := by
  cases e <;> unfold Event.IsBigSynced <;> infer_instance

/-- The next step of the thread; `err` is what the call it stands before returns, and
`handle` what a call that creates something creates. -/
def next (s : App) (err : Int) (handle : Nat) : Option App :=
  match s.pc with
  | .idle => some (testRunReceiver s)
  | .resetSems => some (resetSems s)
  | .startScan => some (startScan s err)
  | .waitPerAdv => (kSemTake s.semPerAdv .forever err).map fun sem =>
      perAdvTaken { s with semPerAdv := sem } err
  | .stopScan => some (stopScan s err)
  | .createPaSync =>
      if err = 0 ∧ .created handle ∈ s.log then none else some (createPaSync s err handle)
  | .waitPerSync sync => (kSemTake s.semPerSync .msec err).map fun sem =>
      perSyncTaken { s with semPerSync := sem } sync err
  | .deletePaSync sync => some (deletePaSync s sync err)
  | .waitBigInfo sync => (kSemTake s.semPerBigInfo .msec err).map fun sem =>
      bigInfoTaken { s with semPerBigInfo := sem } sync err
  | .isoBigSync sync =>
      if err = 0 ∧ ∃ e ∈ s.log, e.IsBigSynced handle then none
      else some (isoBigSync s sync err handle)
  | .waitBigSync sync big => (kSemTake s.semBigSync .msec err).map fun sem =>
      bigSyncTaken { s with semBigSync := sem } sync big err
  | .countBigSync sync big => some (countBigSync s sync big)
  | .waitBigSyncLost sync big => (kSemTake s.semBigSyncLost .forever err).map fun sem =>
      bigSyncLostTaken { s with semBigSyncLost := sem } sync big err
  | .cleanup sync big cause => some (cleanup s sync big cause)
  | .deleteSync sync big cause => some (deleteSync s sync big cause err)
  | .cleanupBig big cause paErr => some (cleanupBig s big cause paErr)
  | .terminateBig _ cause paErr => some (cleanupReturns s cause paErr err)

/-! ## The callbacks -/

/-- `scan_recv`, lines 79-109. -/
def scanRecv (s : App) (report : ScanReport) : App :=
  if s.broadcasterFound then s
  else if DEVICE_NAME.isPrefixOf report.name then
    { s with
      broadcasterFound := true
      periodic := ⟨report.addr, report.sid, btIntervalToMs report.interval⟩
      semPerAdv := s.semPerAdv.give }
  else s

/-- `sync_cb`, lines 115-121. -/
def syncCb (s : App) (sync : Sync) : App :=
  { s.note (.synced sync) with semPerSync := s.semPerSync.give }

/-- `term_cb`, lines 123-130. -/
def termCb (s : App) (sync : Sync) : App :=
  { s.note (.terminated sync) with
    perAdvLost := true
    semPerSyncLost := s.semPerSyncLost.give }

/-- `biginfo_cb`, lines 132-153; `maxChan` is `CONFIG_BT_ISO_MAX_CHAN`. -/
def biginfoCb (maxChan : Nat) (s : App) (info : BigInfo) : App :=
  if s.biginfoReceived then s
  else { s with
    isoIntervalMs := btIntervalToMs info.isoInterval
    bisCount := .ofNat (min info.numBis.toNat maxChan)
    biginfoReceived := true
    semPerBigInfo := s.semPerBigInfo.give }

/-- `iso_connected`, lines 225-232; `now` is `k_uptime_get`. -/
def isoConnected (s : App) (big : Big) (chan : Nat) (now : UInt64) : App :=
  { s.note (.connected big chan) with
    bigSyncStartTime := now
    semBigSync := s.semBigSync.give }

/-- `iso_disconnected`, lines 234-252; a division by 0 has no value in C, the log has
the divisor. -/
def isoDisconnected (s : App) (big : Big) (chan : Nat) (now : UInt64) : App :=
  let bigSyncDuration := now - s.bigSyncStartTime
  let totalDuration := bigSyncDuration + (s.bigSyncCount - 1).toUInt64 * s.averageDuration
  { s.note (.disconnected big chan s.bigSyncCount.toNat) with
    averageDuration := totalDuration / s.bigSyncCount.toUInt64
    bigSyncLost := true
    semBigSyncLost := s.semBigSyncLost.give }

/-! ## Steps -/

inductive Act
  | thread (err : Int) (handle : Nat)
  | scanRecv (report : ScanReport)
  | synced (sync : Sync)
  | terminated (sync : Sync)
  | biginfo (sync : Sync) (info : BigInfo)
  | connected (big : Big) (chan : Nat) (now : UInt64)
  | disconnected (big : Big) (chan : Nat) (now : UInt64)

/-- The BIG has this channel. -/
def Event.HasChan (big : Big) (chan : Nat) : Event → Prop
  | .bigSynced b numBis => b = big ∧ chan < numBis.toNat
  | _ => False

/-- The channel was reported as disconnected. -/
def Event.IsDown (big : Big) (chan : Nat) : Event → Prop
  | .disconnected b c _ => b = big ∧ c = chan
  | _ => False

instance (big : Big) (chan : Nat) (e : Event) : Decidable (e.HasChan big chan) := by
  cases e <;> unfold Event.HasChan <;> infer_instance

instance (big : Big) (chan : Nat) (e : Event) : Decidable (e.IsDown big chan) := by
  cases e <;> unfold Event.IsDown <;> infer_instance

/-- One step, of the thread or of a callback that the host may call. -/
def step (maxChan : Nat) (s : App) : Act → Option App
  | .thread err handle => next s err handle
  | .scanRecv report => if s.callbacksRegistered then some (scanRecv s report) else none
  | .synced sync =>
      if .created sync ∈ s.log ∧ .synced sync ∉ s.log ∧ .terminated sync ∉ s.log ∧
          .deleted sync ∉ s.log then
        some (syncCb s sync)
      else none
  | .terminated sync =>
      if .created sync ∈ s.log ∧ .terminated sync ∉ s.log then some (termCb s sync) else none
  | .biginfo sync info =>
      if .synced sync ∈ s.log ∧ .terminated sync ∉ s.log ∧ .deleted sync ∉ s.log then
        some (biginfoCb maxChan s info)
      else none
  | .connected big chan now =>
      if (∃ e ∈ s.log, e.HasChan big chan) ∧ .connected big chan ∉ s.log ∧
          ¬ ∃ e ∈ s.log, e.IsDown big chan then
        some (isoConnected s big chan now)
      else none
  | .disconnected big chan now =>
      if (∃ e ∈ s.log, e.HasChan big chan) ∧ ¬ ∃ e ∈ s.log, e.IsDown big chan then
        some (isoDisconnected s big chan now)
      else none

/-! ## Runs without an error -/

/-- From the call of `test_run_receiver` to the wait for the synced callback of sync `n`. -/
def toPerSync (n : Nat) : List Act :=
  [.thread 0 0, .thread 0 0, .thread 0 0, .scanRecv ⟨DEVICE_NAME, 7, 1, 100⟩, .thread 0 0,
    .thread 0 0, .thread 0 n]

/-- And on to the connected callback of BIG `n`, which the thread has not seen yet. -/
def toConnected (n : Nat) : List Act :=
  toPerSync n ++ [Act.synced n, .thread 0 0, .biginfo n ⟨1, 10⟩, .thread 0 0, .thread 0 n,
    .connected n 0 5]

/-- A run that counts its BIG sync, sees it lost and deletes its sync. -/
def session (n : Nat) : List Act :=
  toConnected n ++ [Act.thread 0 0, .thread 0 0, .disconnected n 0 9, .thread 0 0, .thread 0 0,
    .thread 0 0, .thread 0 0]

end NcsExp.IsoReceiver
