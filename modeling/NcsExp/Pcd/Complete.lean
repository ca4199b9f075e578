/-
# NcsExp.Pcd.Complete -- when the copy is complete

`pcd_fw_copy` leaves its loop when `bytes_moved` has reached `len`.  The application
core raises `bytes_moved` before it hands the chunk over, so the loop can be left
while the last chunk is still waiting in the buffer (`exit_complete_iff`).  The copy
is complete in the runs that never leave it so (`copy_complete`); an image of one
chunk is never copied at all (`short_image_not_copied`).
-/
import NcsExp.Pcd.Handover

namespace NcsExp.Pcd

open NcsExp.Theory

set_option autoImplicit false

/-! ## Leaving the loop -/

/-- A chunk that is not empty is in the buffer and counted in `bytes_moved`. -/
def pending (m : Machine) : Bool :=
  (m.cmd.imageChunkAvailable || m.app == .clearWritten || m.app == .setAvailable) &&
    m.cmd.chunkLen != 0

/-- The loop of `pcd_fw_copy` is left only while no chunk is pending. -/
def settledExit (m : Machine) (a : Act) : Bool :=
  match a, m.net with
  | .net _, .loopLen moved => decide (moved < m.cmd.len) || !pending m
  | _, _ => true

/-- At the exit the whole image has been moved. -/
theorem moved_at_exit {u : Update} {m : Machine} (inv : Inv u m) {moved : Nat}
    (at_ : m.net = .loopLen moved) (last : ¬ moved < m.cmd.len) : m.cmd.bytesMoved = u.len := by
  have loaded := inv.turn.loaded (by simp [at_])
  have len : m.cmd.len = u.len := loaded.len
  have bound : m.cmd.bytesMoved ≤ u.len := loaded.moved
  have knows := inv.knows
  rw [at_] at knows
  have seen : moved ≤ m.cmd.bytesMoved := knows
  omega

/-- A buffer that is full at the exit holds what is missing. -/
theorem Full.complete_iff {u : Update} {v : View} (full : Full u v) (all : v.bytesMoved = u.len) :
    v.flash = u.image ↔ v.chunkLen = 0 := by
  have moved := full.moved
  rw [full.flashed, all, Update.image]
  constructor
  · intro same
    have size := congrArg List.length same
    rw [Memory.length_load, Memory.length_load] at size
    omega
  · intro empty
    rw [empty, Nat.sub_zero]

theorem not_pending {m : Machine} (available : m.cmd.imageChunkAvailable = false)
    (cleared : m.app ≠ .clearWritten) (set : m.app ≠ .setAvailable) : pending m = false := by
  simp [pending, available, cleared, set]

/-- **The exit.**  Where the loop is left, the flash holds the image exactly when no
chunk is pending. -/
theorem exit_complete_iff {u : Update} {m : Machine} (inv : Inv u m) {moved : Nat}
    (at_ : m.net = .loopLen moved) (last : ¬ moved < m.cmd.len) :
    m.flash = u.image ↔ pending m = false := by
  have all : m.cmd.bytesMoved = u.len := moved_at_exit inv at_ last
  have flashed : Flashed u m.view m.cmd.bytesMoved → m.flash = u.image := by
    intro flashed
    rw [all] at flashed
    exact flashed
  cases inv.turn with
  | starting _ net => exact absurd (net.symm.trans at_) (by simp)
  | filling _ off available _ _ _ done =>
      have again : m.caller = .pcdNetworkCoreUpdate := by
        cases who : m.caller with
        | pcdCmdWrite => exact absurd ((off who).symm.trans at_) (by simp)
        | pcdNetworkCoreUpdate => rfl
      by_cases raised : m.app = .clearWritten ∨ m.app = .setAvailable
      · have full : Full u m.view := by
          rcases raised with pc | pc <;> rw [pc] at done <;> exact done
        rw [show m.flash = u.image ↔ m.cmd.chunkLen = 0 from full.complete_iff all]
        rcases raised with pc | pc <;> simp [pending, pc]
      · rw [not_or] at raised
        exact ⟨fun _ => not_pending (available again) raised.1 raised.2,
          fun _ => flashed (done.flashed raised.1 raised.2)⟩
  | full _ available _ _ _ done =>
      rw [at_] at done
      have full : Full u m.view := done
      rw [show m.flash = u.image ↔ m.cmd.chunkLen = 0 from full.complete_iff all]
      simp [pending, available]
  | drained _ _ _ _ net => exact absurd (net.symm.trans at_) (by simp)
  | empty app _ available _ _ _ done =>
      refine ⟨fun _ => not_pending available ?_ ?_, fun _ => flashed done⟩
      all_goals
        intro pc
        rw [pc] at app
        cases app
  | ended _ net => 
      rcases net with net | net <;> exact absurd (net.symm.trans at_) (by simp)

/-! ## Every run -/

/-- The network core is about to return 0 from `pcd_fw_copy`. -/
def NetPc.succeeding : NetPc → Prop
  | .memsetDst rc => rc = 0
  | .memset rc _ _ => rc = 0
  | .copyReturned rc => rc = 0
  | _ => False

/-- After the exit nothing is written to the flash. -/
theorem netStep_succeeding {u : Update} {m m' : Machine} {answer : Int}
    (inv : Inv u m) (taken : netStep u m answer = some m') (succeeding : m'.net.succeeding) :
    m'.flash = m.flash ∧
      (m.net.succeeding ∨ ∃ moved, m.net = .loopLen moved ∧ ¬ moved < m.cmd.len) := by
  have knows := inv.knows
  unfold netStep at taken
  cases at_ : m.net <;> simp only [at_] at taken knows
  case off => cases taken
  case halted => cases taken
  case boot => cases taken
  case validateSrc => exact knows.elim
  case internalData => exact knows.elim
  case internalLen => exact knows.elim
  case copyMagic =>
      cases taken
      dsimp only at succeeding
      split at succeeding
      · exact absurd (show -EFAULT = 0 from succeeding) (by decide)
      · exact succeeding.elim
  case init =>
      cases taken
      dsimp only at succeeding
      split at succeeding
      · rename_i failed
        exact absurd succeeding failed
      · exact succeeding.elim
  case loopLen moved =>
      cases taken
      dsimp only at succeeding
      split at succeeding
      · exact succeeding.elim
      · rename_i last
        exact ⟨rfl, Or.inr ⟨moved, rfl, last⟩⟩
  case chunkRead =>
      split at taken
      · cases taken
        exact succeeding.elim
      · split at taken
        · cases taken
          exact succeeding.elim
        · rename_i failed
          cases taken
          exact absurd succeeding failed
  case memsetDst =>
      cases taken
      exact ⟨rfl, Or.inl succeeding⟩
  case memset =>
      split at taken <;> cases taken <;> exact ⟨rfl, Or.inl succeeding⟩
  all_goals
    cases taken
    dsimp only at succeeding
    first
      | exact succeeding.elim
      | (split at succeeding <;> exact succeeding.elim)

theorem step_complete {u : Update} {m m' : Machine} {a : Act} (inv : Inv u m)
    (settled : settledExit m a = true) (complete : m.net.succeeding → m.flash = u.image)
    (taken : step u m a = some m') : m'.net.succeeding → m'.flash = u.image := by
  intro succeeding
  cases a with
  | app =>
      have frame := appStep_frame taken
      rw [frame.flash]
      rcases frame.net with ⟨_, net⟩ | ⟨_, net⟩ | net <;> rw [net] at succeeding
      · exact succeeding.elim
      · exact succeeding.elim
      · exact complete succeeding
  | net answer =>
      obtain ⟨same, before | ⟨moved, at_, last⟩⟩ := netStep_succeeding inv taken succeeding
      · rw [same]
        exact complete before
      · rw [same]
        refine (exit_complete_iff inv at_ last).mpr ?_
        simpa only [settledExit, at_, decide_eq_false last, Bool.false_or, Bool.not_eq_true'] using
          settled

/-- **The copy is complete.**  In every run that leaves the loop only while no chunk
is pending, `pcd_fw_copy` returns 0 with the whole image in the flash. -/
theorem copy_complete {u : Update} (image : u.External) {m : Machine}
    (run : Reachable (step u) Init settledExit m) (success : m.net = .copyReturned 0) :
    m.flash = u.image := by
  have complete : m.net.succeeding → m.flash = u.image := by
    apply run.strengthen (P := fun m => m.net.succeeding → m.flash = u.image) (Q := Inv u)
    · intro s before
      exact reachable_inv image before
    · intro s init
      rw [init.net]
      exact False.elim
    · intro s a t inv complete settled taken
      exact step_complete inv settled complete taken
  apply complete
  rw [success]
  exact (rfl : (0 : Int) = 0)

/-! ## Images of one chunk -/

/-- The statements between the choice of the chunk's size and the write of
`bytes_moved`. -/
def AppPc.sized : AppPc → Bool
  | .copyDst => true
  | .copyData _ => true
  | .copyMoved _ _ => true
  | .copyLen _ _ => true
  | .copy _ _ _ _ => true
  | .addMoved => true
  | .addLen _ => true
  | .setMoved _ => true
  | _ => false

/-- The statements from that write to the next update. -/
def AppPc.raised : AppPc → Bool
  | .clearWritten => true
  | .setAvailable => true
  | pc => pc.polling || pc.ended

/-- What the application core counts at a statement. -/
def Counts (u : Update) (cmd : PcdCmd) (pc : AppPc) : Prop :=
  (pc.sized = true → cmd.bytesMoved + cmd.chunkLen = u.len) ∧
    (pc.raised = true → cmd.bytesMoved = u.len)

theorem counts_of_sized {u : Update} {cmd : PcdCmd} {pc : AppPc} (raised : pc.raised = false)
    (all : cmd.bytesMoved + cmd.chunkLen = u.len) : Counts u cmd pc :=
  ⟨fun _ => all, fun yes => absurd (raised.symm.trans yes) (by simp)⟩

theorem counts_of_raised {u : Update} {cmd : PcdCmd} {pc : AppPc} (sized : pc.sized = false)
    (all : cmd.bytesMoved = u.len) : Counts u cmd pc :=
  ⟨fun yes => absurd (sized.symm.trans yes) (by simp), fun _ => all⟩

theorem counts_of_neither {u : Update} {cmd : PcdCmd} {pc : AppPc} (sized : pc.sized = false)
    (raised : pc.raised = false) : Counts u cmd pc :=
  ⟨fun yes => absurd (sized.symm.trans yes) (by simp),
    fun yes => absurd (raised.symm.trans yes) (by simp)⟩

theorem afterUpdate_sized (m : Machine) : m.afterUpdate.sized = false := by
  unfold Machine.afterUpdate
  split <;> rfl

theorem appStep_counts {u : Update} (image : u.External) (short : u.len ≤ u.pageSize)
    {m m' : Machine} (turn : Turn u m) (counts : Counts u m.cmd m.app)
    (taken : appStep u m = some m') : Counts u m'.cmd m'.app := by
  obtain ⟨sized, raised⟩ := counts
  unfold appStep at taken
  cases at_ : m.app <;> simp only [at_] at taken <;> rw [at_] at sized raised
  case cmdTest =>
      rw [if_neg image.valid] at taken
      cases taken
      exact counts_of_neither rfl rfl
  case update =>
      obtain ⟨loaded, _⟩ := turn.filling_of_working (by rw [at_]; rfl) (by rw [at_]; rfl)
      rw [if_pos (show EXTERNAL_FLASH ≤ m.cmd.data from loaded.external image)] at taken
      cases taken
      exact counts_of_neither rfl rfl
  case setChunkLen bytesLeft =>
      cases taken
      obtain ⟨loaded, done⟩ := turn.filling_of_working (by rw [at_]; rfl) (by rw [at_]; rfl)
      rw [at_] at done
      obtain ⟨left, _⟩ := done
      have moved : m.cmd.bytesMoved ≤ u.len := loaded.moved
      have left : bytesLeft = u.len - m.cmd.bytesMoved := left
      refine counts_of_sized rfl ?_
      show m.cmd.bytesMoved + (if bytesLeft > u.pageSize then u.pageSize else bytesLeft) = u.len
      rw [if_neg (by omega)]
      omega
  case copy =>
      split at taken
      · cases taken
        exact counts_of_sized rfl (sized rfl)
      · cases taken
        exact counts_of_sized rfl (sized rfl)
  case setMoved sum =>
      cases taken
      obtain ⟨_, done⟩ := turn.filling_of_working (by rw [at_]; rfl) (by rw [at_]; rfl)
      rw [at_] at done
      obtain ⟨rfl, _⟩ := done
      exact counts_of_raised rfl (sized rfl)
  case setAvailable =>
      cases taken
      exact counts_of_raised (afterUpdate_sized m) (raised rfl)
  case pollMagic =>
      cases taken
      refine counts_of_raised ?_ (raised rfl)
      dsimp only
      split <;> rfl
  case pollDone =>
      cases taken
      refine counts_of_raised ?_ (raised rfl)
      dsimp only
      split <;> rfl
  case pollWritten =>
      split at taken
      · cases taken
        exact counts_of_neither rfl rfl
      · cases taken
        exact counts_of_raised rfl (raised rfl)
  case returned => cases taken
  all_goals
    cases taken
    first
      | exact counts_of_neither rfl rfl
      | exact counts_of_sized rfl (sized rfl)
      | exact counts_of_raised rfl (raised rfl)

/-- The one chunk is the whole image, and the network core never looks for it. -/
structure OneChunk (u : Update) (m : Machine) : Prop where
  flash : m.flash = []
  counts : Counts u m.cmd m.app
  moved : m.net ≠ .off → m.cmd.bytesMoved = u.len
  loop : ∀ moved, m.net = .loopLen moved → moved = u.len
  idle : m.net.holding = false ∧ m.net ≠ .loopAvailable

/-- While the network core runs, the application core counts the whole image. -/
theorem appStep_moved {u : Update} {m m' : Machine} (turn : Turn u m) (one : OneChunk u m)
    (taken : appStep u m = some m') (on : m.net ≠ .off) : m'.cmd.bytesMoved = u.len := by
  rcases (appStep_frame taken).moved with at_ | at_ | same
  · exact absurd (turn.off_of_starting (by rw [at_]; rfl)) on
  · obtain ⟨_, done⟩ := turn.filling_of_working (by rw [at_]; rfl) (by rw [at_]; rfl)
    rw [at_] at done
    obtain ⟨sum, _⟩ := done
    rw [sum]
    exact one.counts.1 (by rw [at_]; rfl)
  · exact same.trans (one.moved on)

theorem appStep_oneChunk {u : Update} (image : u.External) (short : u.len ≤ u.pageSize)
    {m m' : Machine} (inv : Inv u m) (one : OneChunk u m) (taken : appStep u m = some m') :
    OneChunk u m' := by
  have frame := appStep_frame taken
  have flash : m'.flash = [] := frame.flash.trans one.flash
  have counts := appStep_counts image short inv.turn one.counts taken
  rcases frame.net with ⟨at_, net⟩ | ⟨_, net⟩ | net
  · refine ⟨flash, counts, fun _ => ?_, ?_, ?_⟩
    · simp only [appStep, at_, Option.some.injEq] at taken
      subst taken
      exact counts.2 rfl
    · intro moved loop
      exact absurd (net.symm.trans loop) (by simp)
    · rw [net]
      exact ⟨rfl, by simp⟩
  · refine ⟨flash, counts, fun on => absurd net on, ?_, ?_⟩
    · intro moved loop
      exact absurd (net.symm.trans loop) (by simp)
    · rw [net]
      exact ⟨rfl, by simp⟩
  · refine ⟨flash, counts, fun on => ?_, ?_, ?_⟩
    · exact appStep_moved inv.turn one taken (by rw [← net]; exact on)
    · rw [net]
      exact one.loop
    · rw [net]
      exact one.idle

/-- A network core that finds all bytes moved does not look for a chunk. -/
theorem netStep_passes {u : Update} {m m' : Machine} {answer : Int}
    (idle : m.net.holding = false) (unasked : m.net ≠ .loopAvailable)
    (last : ∀ moved, m.net = .loopLen moved → ¬ moved < m.cmd.len)
    (taken : netStep u m answer = some m') :
    (∀ moved, m'.net = .loopLen moved → moved = m.cmd.bytesMoved) ∧
      m'.net.holding = false ∧ m'.net ≠ .loopAvailable := by
  have other : ∀ {pc : NetPc}, (∀ moved, pc ≠ .loopLen moved) → pc.holding = false →
      pc ≠ .loopAvailable → (∀ moved, pc = .loopLen moved → moved = m.cmd.bytesMoved) ∧
        pc.holding = false ∧ pc ≠ .loopAvailable :=
    fun passed holding asked => ⟨fun moved loop => absurd loop (passed moved), holding, asked⟩
  unfold netStep at taken
  cases at_ : m.net <;> simp only [at_] at taken <;> rw [at_] at idle unasked
  case off => cases taken
  case halted => cases taken
  case boot => cases taken
  case loopMoved =>
      cases taken
      exact ⟨fun moved loop => by cases loop; rfl, rfl, by simp⟩
  case loopLen moved =>
      rw [if_neg (last moved at_)] at taken
      cases taken
      exact other (by simp) rfl (by simp)
  case loopAvailable => exact absurd rfl unasked
  case internalLen => split at taken <;> cases taken <;> exact other (by simp) rfl (by simp)
  case memset => split at taken <;> cases taken <;> exact other (by simp) rfl (by simp)
  case chunkPtr => cases idle
  case chunkLen => cases idle
  case chunkRead => cases idle
  case clearAvailable => cases idle
  case setWritten => cases idle
  all_goals
    cases taken
    first
      | exact other (by simp) rfl (by simp)
      | (dsimp only; split <;> exact other (by simp) rfl (by simp))

theorem netStep_oneChunk {u : Update} {m m' : Machine} {answer : Int} (inv : Inv u m)
    (one : OneChunk u m) (taken : netStep u m answer = some m') : OneChunk u m' := by
  have on : m.net ≠ .off := by
    intro off
    simp [netStep, off] at taken
  have moved := one.moved on
  have quiet := netStep_quiet inv.knows one.idle.1 taken
  have len : m.cmd.len = u.len := (inv.turn.loaded on).len
  have goes := netStep_passes one.idle.1 one.idle.2
    (fun read loop => by rw [one.loop read loop, len]; exact Nat.lt_irrefl _) taken
  have same : m'.cmd.bytesMoved = m.cmd.bytesMoved := quiet.view.bytesMoved
  refine ⟨quiet.view.flash.trans one.flash, ?_, fun _ => same.trans moved, ?_, goes.2⟩
  · rw [quiet.app]
    unfold Counts
    rw [same, show m'.cmd.chunkLen = m.cmd.chunkLen from quiet.view.chunkLen]
    exact one.counts
  · intro read loop
    exact (goes.1 read loop).trans moved

/-- **An image of one chunk is never copied.**  Nothing is written to the flash in any
run, whatever `pcd_fw_copy` returns. -/
theorem short_image_not_copied {u : Update} (image : u.External) (short : u.len ≤ u.pageSize)
    {m : Machine} (run : Reachable (step u) Init unguarded m) : m.flash = [] := by
  refine OneChunk.flash (run.strengthen (P := OneChunk u) (fun _ => reachable_inv image) ?_ ?_)
  · intro s init
    refine ⟨init.flash, ?_, fun on => absurd init.net on, ?_, ?_⟩
    · rw [init.app]
      exact counts_of_neither rfl rfl
    · intro moved loop
      exact absurd (init.net.symm.trans loop) (by simp)
    · rw [init.net]
      exact ⟨rfl, by simp⟩
  · intro s a t inv one _ taken
    cases a with
    | app => exact appStep_oneChunk image short inv one taken
    | net answer => exact netStep_oneChunk inv one taken

/-! ## Runs up to the return -/

/-- `memset` comes to its end, and leaves the flash alone. -/
theorem memset_returns {u : Update} {ok : Machine → Act → Bool}
    (free : ∀ m rc dst i, m.net = .memset rc dst i → ok m (.net 0) = true) {m : Machine}
    {rc : Int} {dst i : Nat} (run : Reachable (step u) Init ok m)
    (at_ : m.net = .memset rc dst i) :
    ∃ m', Reachable (step u) Init ok m' ∧ m'.net = .copyReturned rc ∧ m'.flash = m.flash := by
  induction rest : 4096 - i generalizing m i with
  | zero =>
      have finished : ¬ i < 4096 := by omega
      refine ⟨{ m with net := .copyReturned rc }, run.next (free m rc dst i at_) (a := .net 0) ?_,
        rfl, rfl⟩
      simp [step, netStep, at_, finished]
  | succ k ih =>
      have more : i < 4096 := by omega
      refine ih (m := { m with ram := m.ram.store (dst + i) [0], net := .memset rc dst (i + 1) })
        (run.next (free m rc dst i at_) (a := .net 0) ?_) rfl (by omega)
      simp [step, netStep, at_, more]

/-- A shared RAM of zeros before the update. -/
def zeroed : Machine where
  cmd := ⟨0, 0, 0, 0, 0, 0, 0, false, false⟩
  ram := fun _ => 0
  app := .cmdTest
  caller := .pcdCmdWrite
  net := .off
  streamOffset := 0
  flash := []

theorem zeroed_init : Init zeroed := ⟨rfl, rfl, rfl, rfl⟩

theorem sevens_fits {len : Nat} (small : len ≤ 16) : EXTERNAL_FLASH + len ≤ 2 ^ 32 := by
  simp only [EXTERNAL_FLASH]
  omega

/-- An image of `len` bytes in chunks of at most `pageSize`. -/
def sevens (len pageSize : Nat) (small : len ≤ 16) : Update where
  srcAddr := EXTERNAL_FLASH
  len := len
  fits := sevens_fits small
  rom := fun _ => 7
  shmStartAddr := 0x2000
  pageSize := pageSize
  netCoreAppOffset := 0

theorem sevens_external (pageSize : Nat) {len : Nat} (small : len ≤ 16) (nonempty : 0 < len) :
    (sevens len pageSize small).External :=
  ⟨nonempty, Nat.le_refl _⟩

/-- The application core fills the buffer and releases the network core, which finds
all bytes moved. -/
def oneByteRun : List Act := List.replicate 23 .app ++ List.replicate 8 (.net 0)

/-- **One byte is never copied**, and `pcd_fw_copy` returns 0. -/
theorem one_byte_lost :
    ¬ ∀ (u : Update) (m : Machine), u.External → Reachable (step u) Init unguarded m →
      m.net = .copyReturned 0 → m.flash = u.image := by
  intro complete
  have found : (exec (step (sevens 1 4096 (by decide))) unguarded zeroed oneByteRun).any
      (fun m => m.net == .memset 0 0x2000 0 && m.flash == []) = true := by decide +kernel
  obtain ⟨m, run, lost⟩ := exists_reachable_of_exec zeroed_init found
  simp only [Bool.and_eq_true, beq_iff_eq] at lost
  obtain ⟨m', run', success, same⟩ := memset_returns (fun _ _ _ _ _ => rfl) run lost.1
  have copied := complete _ m' (sevens_external _ _ (by decide)) run' success
  rw [same, lost.2] at copied
  cases copied

/-- Two chunks of a byte.  The network core is past the loop test when the last
chunk comes. -/
def inTimeRun : List Act :=
  List.replicate 23 .app ++ List.replicate 16 (.net 0) ++ List.replicate 18 .app ++
    List.replicate 10 (.net 0)

theorem copy_complete_inTimeRun :
    ∃ m : Machine, m.net = .copyReturned 0 ∧ m.flash = (sevens 2 1 (by decide)).image := by
  have found : (exec (step (sevens 2 1 (by decide))) settledExit zeroed inTimeRun).any
      (fun m => m.net == .memset 0 0x2000 0) = true := by decide +kernel
  obtain ⟨m, run, at_⟩ := exists_reachable_of_exec zeroed_init found
  obtain ⟨m', run', success, _⟩ := memset_returns (fun m rc dst i at_ => by simp [settledExit, at_])
    run (eq_of_beq at_)
  exact ⟨m', success, copy_complete (sevens_external _ _ (by decide)) run' success⟩

end NcsExp.Pcd
