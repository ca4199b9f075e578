/-
# NcsExp.Pcd.Exclusive -- the hand-over is exclusive and goes on

`HandoverOk` collects what the two flags are for: while the network core holds the
buffer the application core leaves it alone, no chunk is larger than a page or
reaches past the image, the flash holds a front of the image, and while the copy is
under way the flags keep changing.  It holds in every state of the runs in which no
write to the stream fails (`handover_ok`).
-/
import NcsExp.Pcd.Progress
import NcsExp.Pcd.Complete

namespace NcsExp.Pcd

open NcsExp.Theory

set_option autoImplicit false

/-! ## Runs without write errors -/

/-- `stream_flash_buffered_write` reports success. -/
def noWriteError (m : Machine) (a : Act) : Bool :=
  match a, m.net with
  | .net answer, .chunkRead _ n got => decide (got.length < n) || answer == 0
  | _, _ => true

/-- The loop is left without an error. -/
def LeftWell : NetPc → Prop
  | .memsetDst rc => rc = 0
  | .memset rc _ _ => rc = 0
  | _ => True

theorem step_leftWell {u : Update} {m m' : Machine} {a : Act} (met : noWriteError m a = true)
    (well : LeftWell m.net) (taken : step u m a = some m') : LeftWell m'.net := by
  cases a with
  | app =>
      rcases (appStep_frame taken).net with ⟨_, net⟩ | ⟨_, net⟩ | net <;> rw [net]
      · trivial
      · trivial
      · exact well
  | net answer =>
      simp only [step, netStep] at taken
      cases at_ : m.net <;> simp only [at_] at taken well
      case chunkRead src n got =>
          split at taken
          · cases taken
            trivial
          · rename_i all
            split at taken
            · cases taken
              trivial
            · rename_i failed
              simp [noWriteError, at_, all, failed] at met
      case internalLen => split at taken <;> cases taken <;> trivial
      case memsetDst => cases taken; exact well
      case memset => split at taken <;> cases taken <;> first | exact well | trivial
      all_goals
        cases taken
        try first
          | trivial
          | (dsimp only; split <;> trivial)

theorem reachable_leftWell {u : Update} {m : Machine}
    (run : Reachable (step u) Init noWriteError m) : LeftWell m.net := by
  apply run.invariant (P := fun m => LeftWell m.net)
  · intro s init
    rw [init.net]
    trivial
  · intro s a t well met taken
    exact step_leftWell met well taken

/-! ## Progress -/

/-- `stream_flash_init` has failed, and the network core is about to report it. -/
def NetPc.failed : NetPc → Bool
  | .copyReturned rc => rc != 0
  | .invalidate => true
  | _ => false

/-- A network core with bytes to fetch fetches them. -/
theorem fetching_of_reading {u : Update} {m : Machine} (inv : Inv u m) (well : LeftWell m.net)
    (magic : m.cmd.magic = PCD_CMD_MAGIC_COPY) (more : m.cmd.bytesMoved < u.len)
    (on : m.net ≠ .off) (goes : m.net.failed = false) (done : Reading u m.view m.net) :
    m.net.fetching = true := by
  have knows := inv.knows
  have unmoved : m.cmd.bytesMoved ≠ u.len := Nat.ne_of_lt more
  cases at_ : m.net <;> rw [at_] at knows well on goes done <;> first | rfl | skip
  case off => exact absurd rfl on
  case validateSrc => exact knows.elim
  case internalData => exact knows.elim
  case internalLen => exact knows.elim
  case setWritten => exact done.elim
  case memsetDst => exact absurd (knows well) unmoved
  case memset => exact absurd (knows well) unmoved
  case copyReturned rc => exact absurd (knows (by simpa [NetPc.failed] using goes)) unmoved
  case validate => exact absurd knows unmoved
  case done => exact absurd knows unmoved
  case invalidate => cases goes
  case halted => exact absurd magic (inv.magic.halted at_)
  case boot => exact knows.elim

/-- The flags of the hand-over. -/
def Machine.flags (m : Machine) : Bool × Bool :=
  (m.cmd.imageChunkAvailable, m.cmd.imageChunkWritten)

/-- The steps of one core alone change a flag. -/
def FlagsChange (u : Update) (m : Machine) : Prop :=
  ∃ t, (Leads (step u) appAlone m t ∨ Leads (step u) netAlone m t) ∧ t.flags ≠ m.flags

/-- Once the network core has been released, one core or the other changes a flag. -/
theorem flags_change {u : Update} (image : u.External) {m : Machine} (inv : Inv u m)
    (well : LeftWell m.net) (magic : m.cmd.magic = PCD_CMD_MAGIC_COPY)
    (more : m.cmd.bytesMoved < u.len) (on : m.net ≠ .off) (goes : m.net.failed = false) :
    FlagsChange u m := by
  have refills : m.cmd.imageChunkWritten = true → FlagsChange u m := by
    intro written
    obtain ⟨t, leads, cleared⟩ := refill image inv magic on written
    refine ⟨t, Or.inl leads, ?_⟩
    simp [Machine.flags, cleared, written]
  cases inv.turn with
  | starting _ off => exact absurd off on
  | filling _ off available written cleared =>
      have again : m.caller = .pcdNetworkCoreUpdate := by
        cases who : m.caller with
        | pcdCmdWrite => exact absurd (off who) on
        | pcdNetworkCoreUpdate => rfl
      by_cases last : m.app = .setAvailable
      · have taken : step u m .app = some { m with
            cmd := { m.cmd with imageChunkAvailable := true }, app := m.afterUpdate } := by
          simp only [step, appStep, last]
        refine ⟨_, Or.inl (.next .here rfl taken), ?_⟩
        simp [Machine.flags, available again]
      · exact refills (written again last)
  | full _ available _ _ _ done =>
      obtain ⟨t, leads, cleared⟩ := fetch image inv available more
        (fetching_of_reading inv well magic more on goes done)
      refine ⟨t, Or.inr leads, ?_⟩
      simp [Machine.flags, cleared, available]
  | drained _ _ _ written net =>
      have taken : step u m (.net 0) = some { m with
          cmd := { m.cmd with imageChunkWritten := true }, net := .loopMoved } := by
        simp only [step, netStep, net]
      refine ⟨_, Or.inr (.next .here rfl taken), ?_⟩
      simp [Machine.flags, written]
  | empty _ _ _ written => exact refills written
  | ended _ _ other => exact absurd magic other

/-- A network core that has failed reports it. -/
theorem failure_reported {u : Update} {m : Machine} (failed : m.net.failed = true) :
    ∃ t, Leads (step u) netAlone m t ∧ t.cmd.magic = PCD_CMD_MAGIC_FAIL := by
  cases at_ : m.net <;> rw [at_] at failed <;>
    simp only [NetPc.failed, Bool.false_eq_true] at failed
  case copyReturned rc =>
      have error : rc ≠ 0 := by simpa using failed
      have returned : step u m (.net 0) = some { m with net := .invalidate } := by
        simp only [step, netStep, at_, if_neg error]
      exact ⟨_, .next (.next .here rfl returned) (a := .net 0) rfl rfl, rfl⟩
  case invalidate =>
      have taken : step u m (.net 0) = some { m with
          cmd := { m.cmd with magic := PCD_CMD_MAGIC_FAIL }, net := .halted } := by
        simp only [step, netStep, at_]
      exact ⟨_, .next .here rfl taken, rfl⟩

/-! ## The hand-over -/

/-- What the hand-over promises of a state. -/
structure HandoverOk (u : Update) (m : Machine) : Prop where
  /-- The application core leaves a buffer alone that the network core holds. -/
  exclusive : m.net.holding = true → ∀ m', appStep u m = some m' →
    m'.cmd.imageChunk = m.cmd.imageChunk ∧ m'.cmd.chunkLen = m.cmd.chunkLen ∧
      m'.cmd.bytesMoved = m.cmd.bytesMoved ∧ m'.ram = m.ram
  /-- From the first write of `bytes_moved` on it is within the image. -/
  moved : m.app.starting = false → m.cmd.bytesMoved ≤ m.cmd.len ∧ m.cmd.len = u.len
  /-- The subtraction does not underflow. -/
  bytesLeft : ∀ n, m.app = .setChunkLen n → n + m.cmd.bytesMoved = m.cmd.len
  /-- `memcpy` reads the image. -/
  within : ∀ dst src n i, m.app = .copy dst src n i → n ≤ u.pageSize ∧
    u.srcAddr ≤ src ∧ src + n ≤ u.srcAddr + u.len
  /-- The stream reads a chunk of the buffer. -/
  chunk : ∀ src n got, m.net = .chunkRead src n got → src = u.shmStartAddr ∧ n ≤ u.pageSize
  /-- The flash holds a front of the image. -/
  front : m.flash <+: u.image
  /-- The application core comes to release the network core. -/
  release : m.cmd.magic = PCD_CMD_MAGIC_COPY → m.net = .off →
    ∃ t, Leads (step u) appAlone m t ∧ t.net = .status ∧ t.flags = (true, false)
  /-- Then the flags go on changing. -/
  change : m.cmd.magic = PCD_CMD_MAGIC_COPY → m.cmd.bytesMoved < m.cmd.len → m.net ≠ .off →
    m.net.failed = false → FlagsChange u m
  /-- An error of the stream ends the copy. -/
  report : m.net.failed = true →
    ∃ t, Leads (step u) netAlone m t ∧ t.cmd.magic = PCD_CMD_MAGIC_FAIL

theorem appStep_polling_frame {u : Update} {m m' : Machine} (polling : m.app.polling = true)
    (taken : appStep u m = some m') : m'.cmd = m.cmd ∧ m'.ram = m.ram := by
  rcases appStep_polling polling taken with ⟨_, rfl⟩ | ⟨_, _, rfl⟩ | ⟨_, _, rfl⟩ |
    ⟨_, pc, _, _, rfl⟩
  all_goals exact ⟨rfl, rfl⟩

theorem Flashed.front {u : Update} {v : View} {n : Nat} (flashed : Flashed u v n)
    (bound : n ≤ u.len) : v.flash <+: u.image := by
  obtain ⟨rest, size⟩ := Nat.exists_eq_add_of_le bound
  rw [flashed, Update.image, size, Memory.load_add]
  exact List.prefix_append _ _

theorem Reading.front {u : Update} {v : View} {pc : NetPc} (done : Reading u v pc)
    (loaded : Loaded u v) : ∃ n ≤ u.len, Flashed u v n := by
  have of_full : Full u v → ∃ n ≤ u.len, Flashed u v n := fun full =>
    ⟨_, Nat.le_trans (Nat.sub_le _ _) loaded.moved, full.flashed⟩
  cases pc
  case chunkLen => exact of_full done.2
  case chunkRead =>
      obtain ⟨_, _, _, _, full⟩ := done
      exact of_full full
  case clearAvailable => exact ⟨_, loaded.moved, done⟩
  case setWritten => exact done.elim
  all_goals exact of_full done

/-- In every turn the flash holds a front of the image. -/
theorem Turn.front {u : Update} {m : Machine} (turn : Turn u m) : m.flash <+: u.image := by
  have of_flashed : (∃ n ≤ u.len, Flashed u m.view n) → m.flash <+: u.image := by
    rintro ⟨n, bound, flashed⟩
    exact flashed.front bound
  cases turn with
  | starting _ _ flash =>
      rw [flash]
      exact List.nil_prefix
  | filling _ _ _ _ _ loaded done =>
      by_cases raised : m.app = .clearWritten ∨ m.app = .setAvailable
      · have full : Full u m.view := by
          rcases raised with pc | pc <;> rw [pc] at done <;> exact done
        exact of_flashed (full.front loaded)
      · rw [not_or] at raised
        exact of_flashed ⟨_, loaded.moved, done.flashed raised.1 raised.2⟩
  | full _ _ _ _ loaded done => exact of_flashed (done.front loaded)
  | drained _ _ _ _ _ loaded flashed => exact of_flashed ⟨_, loaded.moved, flashed⟩
  | empty _ _ _ _ _ loaded flashed => exact of_flashed ⟨_, loaded.moved, flashed⟩
  | ended _ _ _ _ flashed => exact of_flashed flashed

/-- **The hand-over.**  In every run in which no write to the stream fails, every
state keeps what the hand-over promises. -/
theorem handover_ok {u : Update} (image : u.External) {m : Machine}
    (run : Reachable (step u) Init noWriteError m) : HandoverOk u m := by
  have inv := reachable_inv image run
  have held := reachable_held image run
  have well := reachable_leftWell run
  constructor
  case exclusive =>
      intro holding m' taken
      obtain ⟨same, ram⟩ := appStep_polling_frame (inv.turn.holding holding).1 taken
      rw [same]
      exact ⟨rfl, rfl, rfl, ram⟩
  case moved =>
      intro started
      have loaded := inv.turn.loaded_of_started started
      have len : m.cmd.len = u.len := loaded.len
      rw [len]
      exact ⟨loaded.moved, rfl⟩
  case bytesLeft =>
      intro n at_
      obtain ⟨loaded, done⟩ := inv.turn.filling_of_working (by rw [at_]; rfl) (by rw [at_]; rfl)
      rw [at_] at done
      obtain ⟨rfl, _⟩ := done
      rw [show m.cmd.len = u.len from loaded.len]
      exact Nat.sub_add_cancel loaded.moved
  case within =>
      intro dst src n i at_
      obtain ⟨_, done⟩ := inv.turn.filling_of_working (by rw [at_]; rfl) (by rw [at_]; rfl)
      rw [at_] at done
      obtain ⟨rfl, rfl, rfl, _, sized, _⟩ := done
      have room := sized.room
      exact ⟨sized.page, Nat.le_add_right _ _, by omega⟩
  case chunk =>
      intro src n got at_
      obtain ⟨_, _, _, _, ⟨_, done⟩ | ⟨_, other, _⟩⟩ := inv.turn.holding (by rw [at_]; rfl)
      · rw [at_] at done
        obtain ⟨rfl, rfl, _, _, full⟩ := done
        exact ⟨rfl, full.page⟩
      · exact absurd (at_.symm.trans other) (by simp)
  case front => exact inv.turn.front
  case release =>
      intro magic off
      obtain ⟨t, leads, net, available, written⟩ := release image inv held magic off
      exact ⟨t, leads, net, by rw [Machine.flags, available, written]⟩
  case change =>
      intro magic more on goes
      have len : m.cmd.len = u.len := (inv.turn.loaded on).len
      rw [len] at more
      exact flags_change image inv well magic more on goes
  case report => exact failure_reported

/-- Two chunks of a byte, up to the network core's read of the first. -/
def readingRun : List Act := List.replicate 23 .app ++ List.replicate 10 (.net 0)

theorem handover_ok_readingRun :
    ∃ m : Machine, m.net = .chunkRead 0x2000 1 [] ∧ m.cmd.bytesMoved = 1 ∧
      HandoverOk (sevens 2 1 (by decide)) m := by
  have found : (exec (step (sevens 2 1 (by decide))) noWriteError zeroed readingRun).any
      (fun m => m.net == .chunkRead 0x2000 1 [] && m.cmd.bytesMoved == 1) = true := by
    decide +kernel
  obtain ⟨m, run, at_⟩ := exists_reachable_of_exec zeroed_init found
  simp only [Bool.and_eq_true, beq_iff_eq] at at_
  exact ⟨m, at_.1, at_.2, handover_ok (sevens_external _ _ (by decide)) run⟩

/-- The shared RAM after an update of five bytes. -/
def leftover : Machine := { zeroed with
  cmd := ⟨PCD_CMD_MAGIC_DONE, EXTERNAL_FLASH, 5, 0, 0x2000, 5, 5, true, false⟩ }

/-- **A new command is written field by field**: until `bytes_moved` is, it counts the
bytes of the update before. -/
theorem moved_past_len_between_updates :
    ¬ ∀ (u : Update) (m : Machine), u.External → Reachable (step u) Init noWriteError m →
      m.cmd.bytesMoved ≤ m.cmd.len := by
  intro within
  have found : (exec (step (sevens 1 4096 (by decide))) noWriteError leftover
      (List.replicate 4 .app)).any (fun m => m.cmd.bytesMoved == 5 && m.cmd.len == 1) = true := by
    decide +kernel
  have init : Init leftover := ⟨rfl, rfl, rfl, rfl⟩
  obtain ⟨m, run, past⟩ := exists_reachable_of_exec init found
  simp only [Bool.and_eq_true, beq_iff_eq] at past
  have bound := within _ m (sevens_external _ _ (by decide)) run
  omega

end NcsExp.Pcd
