/-
# NcsExp.Pcd.AppSteps -- the application core's steps keep the turns

One lemma for each turn (`appStep_starting`, `appStep_filling`, ..), assembled in
`appStep_turn`; then, from what any step leaves alone (`appStep_frame`), the bytes
moved (`appStep_knows`) and the magic value (`appStep_magic`).
-/
import NcsExp.Pcd.Turns

namespace NcsExp.Pcd

open NcsExp.Theory

set_option autoImplicit false

/-! ## The turns -/

/-- `pcd_cmd_write` accepts the image. -/
theorem Update.External.valid {u : Update} (image : u.External) :
    ¬ (u.srcAddr = 0 ∨ u.len = 0) := by
  have nonempty := image.nonempty
  have external := image.external
  simp only [EXTERNAL_FLASH] at external
  omega

theorem appStep_starting {u : Update} (image : u.External) {m m' : Machine}
    (caller : m.caller = .pcdCmdWrite) (net : m.net = .off) (flash : m.flash = [])
    (done : Starting u m.view m.app) (taken : appStep u m = some m') : Turn u m' := by
  unfold appStep at taken
  cases at_ : m.app <;> simp only [at_] at taken done
  case cmdTest =>
      rw [if_neg image.valid] at taken
      cases taken
      exact .starting caller net flash trivial
  case cmdMagic => cases taken; exact .starting caller net flash trivial
  case cmdData => cases taken; exact .starting caller net flash rfl
  case cmdLen => cases taken; exact .starting caller net flash ⟨done, rfl⟩
  case cmdOffset => cases taken; exact .starting caller net flash done
  case cmdMoved =>
      cases taken
      refine .filling (by simp [net, NetPc.holding]) (fun _ => net) ?_ ?_ (by simp)
        ⟨done.1, done.2, Nat.zero_le _⟩ ?_
      · intro other
        exact absurd (caller.symm.trans other) (by simp)
      · intro other
        exact absurd (caller.symm.trans other) (by simp)
      · show m.flash = u.rom.load u.srcAddr 0
        rw [flash, Memory.load_zero]
  all_goals exact done.elim

/-- `pcd_cmd_update` is under way; called from the polling loop, it finds the flags
as the network core left them. -/
structure Fills (m : Machine) : Prop where
  net : m.net.holding = false
  off : m.caller = .pcdCmdWrite → m.net = .off
  available : m.caller = .pcdNetworkCoreUpdate → m.cmd.imageChunkAvailable = false
  written : m.caller = .pcdNetworkCoreUpdate → m.cmd.imageChunkWritten = true

/-- A step that leaves the flags alone. -/
structure SameFlags (m m' : Machine) : Prop where
  net : m'.net = m.net
  caller : m'.caller = m.caller
  available : m'.cmd.imageChunkAvailable = m.cmd.imageChunkAvailable
  written : m'.cmd.imageChunkWritten = m.cmd.imageChunkWritten

theorem Turn.still_filling {u : Update} {m m' : Machine} (fills : Fills m) (same : SameFlags m m')
    (before : m'.app ≠ .setAvailable) (loaded : Loaded u m'.view)
    (done : Filling u m'.view m'.app) : Turn u m' := by
  refine .filling ?_ ?_ ?_ ?_ (fun at_ => absurd at_ before) loaded done
  · rw [same.net]
    exact fills.net
  · rw [same.caller, same.net]
    exact fills.off
  · rw [same.caller, same.available]
    exact fills.available
  · rw [same.caller, same.written]
    intro caller _
    exact fills.written caller

/-- One byte of `memcpy`. -/
theorem shows_copy {u : Update} {v : View} {i : Nat} (shows : Shows u v v.bytesMoved i) :
    Shows u
      { v with ram := v.ram.store (u.shmStartAddr + i) [u.rom (u.srcAddr + v.bytesMoved + i)] }
      v.bytesMoved (i + 1) := by
  intro left j below
  show v.ram.store _ _ _ = _
  rw [Memory.store_one]
  by_cases last : j = i
  · subst last
    rw [if_pos rfl]
  · rw [if_neg (by omega)]
    exact shows left j (by omega)

theorem sub32_of_le {a b : Nat} (less : b ≤ a) (bound : a < 2 ^ 32) : sub32 a b = a - b := by
  unfold sub32
  omega

theorem add32_of_lt {a b : Nat} (bound : a + b < 2 ^ 32) : add32 a b = a + b :=
  Nat.mod_eq_of_lt bound

/-- An image in external flash is shorter than the address space. -/
theorem Update.External.len_lt {u : Update} (image : u.External) : u.len < 2 ^ 32 := by
  have external := image.external
  have fits := u.fits
  simp only [EXTERNAL_FLASH] at external
  omega

/-- The buffer is handed over. -/
theorem appStep_setAvailable {u : Update} {m m' : Machine} (last : m.app = .setAvailable)
    (net : m.net.holding = false) (off : m.caller = .pcdCmdWrite → m.net = .off)
    (cleared : m.cmd.imageChunkWritten = false) (loaded : Loaded u m.view) (full : Full u m.view)
    (taken : appStep u m = some m') : Turn u m' := by
  simp only [appStep, last, Option.some.injEq] at taken
  subst taken
  have released : m.afterUpdate.polling = true := by
    unfold Machine.afterUpdate
    split <;> rfl
  refine .full released rfl cleared ?_ loaded ?_
  · intro on
    apply off
    unfold Machine.afterUpdate at on
    split at on
    · assumption
    · cases on
  · show Reading u m.view m.net
    rw [reading_of_not_holding net]
    exact full

/-- The statements of `pcd_cmd_update` up to the hand-over. -/
theorem appStep_filling {u : Update} (image : u.External) {m m' : Machine} (fills : Fills m)
    (last : m.app ≠ .setAvailable) (loaded : Loaded u m.view) (done : Filling u m.view m.app)
    (taken : appStep u m = some m') : Turn u m' := by
  have bound := image.len_lt
  have moved : m.cmd.bytesMoved ≤ u.len := loaded.moved
  unfold appStep at taken
  cases at_ : m.app <;> simp only [at_] at taken done
  case update =>
      rw [if_pos (show EXTERNAL_FLASH ≤ m.cmd.data from loaded.external image)] at taken
      cases taken
      exact .still_filling fills ⟨rfl, rfl, rfl, rfl⟩ (by simp) loaded done
  case setImageChunk =>
      cases taken
      exact .still_filling fills ⟨rfl, rfl, rfl, rfl⟩ (by simp)
        ⟨loaded.data, loaded.len, moved⟩ ⟨rfl, done⟩
  case getLen =>
      cases taken
      exact .still_filling fills ⟨rfl, rfl, rfl, rfl⟩ (by simp) loaded
        ⟨loaded.len, done⟩
  case getMoved len =>
      cases taken
      obtain ⟨rfl, rest⟩ := done
      exact .still_filling fills ⟨rfl, rfl, rfl, rfl⟩ (by simp) loaded
        ⟨sub32_of_le moved bound, rest⟩
  case setChunkLen bytesLeft =>
      cases taken
      obtain ⟨rfl, chunk, flashed⟩ := done
      refine .still_filling fills ⟨rfl, rfl, rfl, rfl⟩ (by simp)
        ⟨loaded.data, loaded.len, moved⟩ ⟨chunk, ?_, ?_, flashed⟩
      · show (if u.len - m.cmd.bytesMoved > u.pageSize then u.pageSize
          else u.len - m.cmd.bytesMoved) ≤ u.pageSize
        split <;> omega
      · show m.cmd.bytesMoved + (if u.len - m.cmd.bytesMoved > u.pageSize then u.pageSize
          else u.len - m.cmd.bytesMoved) ≤ u.len
        split <;> omega
  case copyDst =>
      cases taken
      exact .still_filling fills ⟨rfl, rfl, rfl, rfl⟩ (by simp) loaded
        ⟨done.imageChunk, done⟩
  case copyData dst =>
      cases taken
      exact .still_filling fills ⟨rfl, rfl, rfl, rfl⟩ (by simp) loaded
        ⟨done.1, loaded.data, done.2⟩
  case copyMoved dst data =>
      cases taken
      obtain ⟨rfl, rfl, sized⟩ := done
      exact .still_filling fills ⟨rfl, rfl, rfl, rfl⟩ (by simp) loaded
        ⟨rfl, rfl, sized⟩
  case copyLen dst src =>
      cases taken
      obtain ⟨rfl, rfl, sized⟩ := done
      refine .still_filling fills ⟨rfl, rfl, rfl, rfl⟩ (by simp) loaded
        ⟨rfl, rfl, rfl, Nat.zero_le _, sized, ?_⟩
      intro _ i below
      exact absurd below (Nat.not_lt_zero i)
  case copy dst src n i =>
      obtain ⟨rfl, rfl, rfl, bound, sized, shows⟩ := done
      split at taken
      · rename_i more
        cases taken
        refine .still_filling fills ⟨rfl, rfl, rfl, rfl⟩ (by simp)
          ⟨loaded.data, loaded.len, moved⟩ ⟨rfl, rfl, rfl, more, ?_, shows_copy shows⟩
        exact ⟨sized.imageChunk, sized.page, sized.room, sized.flashed⟩
      · rename_i all
        have size : i = m.view.chunkLen := Nat.le_antisymm bound (Nat.not_lt.mp all)
        cases taken
        rw [size] at shows
        exact .still_filling fills ⟨rfl, rfl, rfl, rfl⟩ (by simp) loaded
          ⟨sized, shows⟩
  case addMoved =>
      cases taken
      exact .still_filling fills ⟨rfl, rfl, rfl, rfl⟩ (by simp) loaded
        ⟨rfl, done⟩
  case addLen before =>
      cases taken
      obtain ⟨rfl, sized, shows⟩ := done
      have room : m.cmd.bytesMoved + m.cmd.chunkLen ≤ u.len := sized.room
      exact .still_filling fills ⟨rfl, rfl, rfl, rfl⟩ (by simp) loaded
        ⟨add32_of_lt (Nat.lt_of_le_of_lt room bound), sized, shows⟩
  case setMoved sum =>
      cases taken
      obtain ⟨rfl, sized, shows⟩ := done
      have back : m.view.bytesMoved + m.view.chunkLen - m.view.chunkLen = m.view.bytesMoved :=
        Nat.add_sub_cancel _ _
      refine .still_filling fills ⟨rfl, rfl, rfl, rfl⟩ (by simp)
        ⟨loaded.data, loaded.len, sized.room⟩ ⟨sized.imageChunk, sized.page, ?_, ?_, ?_⟩
      · exact Nat.le_add_left _ _
      · show Flashed u m.view (m.view.bytesMoved + m.view.chunkLen - m.view.chunkLen)
        rw [back]
        exact sized.flashed
      · show Shows u m.view (m.view.bytesMoved + m.view.chunkLen - m.view.chunkLen) m.view.chunkLen
        rw [back]
        exact shows
  case clearWritten =>
      cases taken
      exact .filling fills.net fills.off fills.available (fun _ before => absurd rfl before)
        (fun _ => rfl) loaded done
  case setAvailable => exact absurd at_ last
  all_goals exact done.elim

/-- The statements of the polling loop. -/
theorem appStep_polling {u : Update} {m m' : Machine} (polling : m.app.polling = true)
    (taken : appStep u m = some m') :
    (m.app = .forceOn ∧ m' = { m with net := .status, app := .pollMagic }) ∨
    (m.app = .pollMagic ∧ m.cmd.magic ≠ PCD_CMD_MAGIC_COPY ∧ m' = { m with app := .pollDone }) ∨
    (m.app = .pollWritten ∧ m.cmd.imageChunkWritten = true ∧
      m' = { m with app := .update, caller := .pcdNetworkCoreUpdate }) ∨
    (m.app ≠ .forceOn ∧ ∃ pc : AppPc, pc.polling = true ∧ pc ≠ .forceOn ∧ m' = { m with app := pc })
    := by
  unfold appStep at taken
  cases at_ : m.app <;> simp only [at_] at taken polling <;> try cases polling
  case forceOn => cases taken; exact Or.inl ⟨rfl, rfl⟩
  case pollMagic =>
      cases taken
      by_cases copy : m.cmd.magic = PCD_CMD_MAGIC_COPY
      · refine Or.inr (Or.inr (Or.inr ⟨by simp, .pollWritten, rfl, by simp, ?_⟩))
        rw [if_pos copy]
      · refine Or.inr (Or.inl ⟨rfl, copy, ?_⟩)
        rw [if_neg copy]
  case pollWritten =>
      split at taken
      · rename_i written
        cases taken
        exact Or.inr (Or.inr (Or.inl ⟨rfl, written, rfl⟩))
      · cases taken
        exact Or.inr (Or.inr (Or.inr ⟨by simp, .pollMagic, rfl, by simp, rfl⟩))

theorem appStep_full {u : Update} {m m' : Machine} (app : m.app.polling = true)
    (available : m.cmd.imageChunkAvailable = true) (written : m.cmd.imageChunkWritten = false)
    (off : m.app = .forceOn → m.net = .off) (loaded : Loaded u m.view)
    (done : Reading u m.view m.net) (magic : Magic m) (taken : appStep u m = some m') :
    Turn u m' := by
  rcases appStep_polling app taken with ⟨at_, rfl⟩ | ⟨at_, other, rfl⟩ | ⟨_, set, _⟩ |
    ⟨on, pc, polling, pcOn, rfl⟩
  · -- The network core is released.
    have held := off at_
    rw [held] at done
    have same : ({ m with net := .status, app := .pollMagic } : Machine).view = m.view := by
      simp [Machine.view, held, NetPc.left]
    refine .full rfl available written (by simp) ?_ ?_
    · rw [same]; exact loaded
    · rw [same]; exact done
  · have halted := magic.halted_of_poll at_ other
    rw [halted] at done
    exact .ended rfl (Or.inl halted) other loaded (Full.front (m := m) done loaded)
  · exact absurd (written.symm.trans set) (by simp)
  · exact .full polling available written (fun at_ => absurd at_ pcOn) loaded done

theorem appStep_drained {u : Update} {m m' : Machine} (app : m.app.polling = true)
    (on : m.app ≠ .forceOn) (available : m.cmd.imageChunkAvailable = false)
    (written : m.cmd.imageChunkWritten = false) (net : m.net = .setWritten)
    (loaded : Loaded u m.view) (flashed : Flashed u m.view m.cmd.bytesMoved) (magic : Magic m)
    (taken : appStep u m = some m') : Turn u m' := by
  rcases appStep_polling app taken with ⟨at_, _⟩ | ⟨at_, other, _⟩ | ⟨_, set, _⟩ |
    ⟨_, pc, polling, pcOn, rfl⟩
  · exact absurd at_ on
  · have halted := magic.halted_of_poll at_ other
    exact absurd (net.symm.trans halted) (by simp)
  · exact absurd (written.symm.trans set) (by simp)
  · exact .drained polling pcOn available written net loaded flashed

theorem appStep_empty {u : Update} {m m' : Machine} (app : m.app.polling = true)
    (on : m.app ≠ .forceOn) (available : m.cmd.imageChunkAvailable = false)
    (written : m.cmd.imageChunkWritten = true) (net : m.net.holding = false)
    (loaded : Loaded u m.view) (flashed : Flashed u m.view m.cmd.bytesMoved) (magic : Magic m)
    (taken : appStep u m = some m') : Turn u m' := by
  rcases appStep_polling app taken with ⟨at_, _⟩ | ⟨at_, other, rfl⟩ | ⟨_, _, rfl⟩ |
    ⟨_, pc, polling, pcOn, rfl⟩
  · exact absurd at_ on
  · have halted := magic.halted_of_poll at_ other
    exact .ended rfl (Or.inl halted) other loaded ⟨_, loaded.moved, flashed⟩
  · -- The application core has seen `image_chunk_written`, and fills the buffer again.
    exact .filling net (fun other => by cases other) (fun _ => available) (fun _ _ => written)
      (by simp) loaded flashed
  · exact .empty polling pcOn available written net loaded flashed

theorem appStep_over {u : Update} {m m' : Machine} (app : m.app.ended = true)
    (net : m.net = .halted ∨ m.net = .off) (magic : m.cmd.magic ≠ PCD_CMD_MAGIC_COPY)
    (loaded : Loaded u m.view) (flashed : ∃ n ≤ u.len, Flashed u m.view n)
    (taken : appStep u m = some m') : Turn u m' := by
  unfold appStep at taken
  cases at_ : m.app <;> simp only [at_] at taken app <;> try cases app
  case pollDone =>
      cases taken
      refine .ended ?_ net magic loaded flashed
      show AppPc.ended (if _ then _ else _) = true
      split <;> rfl
  case forceOff =>
      cases taken
      exact .ended rfl (Or.inr rfl) magic ⟨loaded.data, loaded.len, loaded.moved⟩ flashed
  case returned => cases taken

/-- **The application core's step.** -/
theorem appStep_turn {u : Update} (image : u.External) {m m' : Machine} (inv : Inv u m)
    (taken : appStep u m = some m') : Turn u m' := by
  cases inv.turn with
  | starting caller net flash done => exact appStep_starting image caller net flash done taken
  | filling net off available written cleared loaded done =>
      by_cases last : m.app = .setAvailable
      · rw [last] at done
        exact appStep_setAvailable last net off (cleared last) loaded done taken
      · have fills : Fills m := ⟨net, off, available, fun caller => written caller last⟩
        exact appStep_filling image fills last loaded done taken
  | full app available written off loaded done =>
      exact appStep_full app available written off loaded done inv.magic taken
  | drained app on available written net loaded flashed =>
      exact appStep_drained app on available written net loaded flashed inv.magic taken
  | empty app on available written net loaded flashed =>
      exact appStep_empty app on available written net loaded flashed inv.magic taken
  | ended app net magic loaded flashed => exact appStep_over app net magic loaded flashed taken

/-! ## The bytes moved and the magic value -/

/-- What a step of the application core does to all but the command's other fields
and the buffer. -/
structure AppFrame (m m' : Machine) : Prop where
  flash : m'.flash = m.flash
  net : (m.app = .forceOn ∧ m'.net = .status) ∨ (m.app = .forceOff ∧ m'.net = .off) ∨
    m'.net = m.net
  moved : m.app = .cmdMoved ∨ m.app = .setMoved m'.cmd.bytesMoved ∨
    m'.cmd.bytesMoved = m.cmd.bytesMoved
  magic : (m.app = .cmdMagic ∧ m'.cmd.magic = PCD_CMD_MAGIC_COPY) ∨
    (m'.cmd.magic = m.cmd.magic ∧ (m'.app.copying = true → m.app.copying = true))

theorem AppFrame.of_same {m m' : Machine} (flash : m'.flash = m.flash) (net : m'.net = m.net)
    (moved : m'.cmd.bytesMoved = m.cmd.bytesMoved) (magic : m'.cmd.magic = m.cmd.magic)
    (copying : m'.app.copying = true → m.app.copying = true) : AppFrame m m' :=
  ⟨flash, Or.inr (Or.inr net), Or.inr (Or.inr moved), Or.inr ⟨magic, copying⟩⟩

theorem appStep_frame {u : Update} {m m' : Machine} (taken : appStep u m = some m') :
    AppFrame m m' := by
  have before : ∀ {pc : AppPc}, m.app = pc → pc.copying = true →
      ∀ {p : Prop}, p → m.app.copying = true := by
    intro pc at_ copying _ _
    rw [at_]
    exact copying
  unfold appStep at taken
  cases at_ : m.app <;> simp only [at_] at taken
  case returned => cases taken
  case cmdTest =>
      cases taken
      refine .of_same rfl rfl rfl rfl ?_
      dsimp only
      split <;> exact fun copying => by cases copying
  case cmdMagic =>
      cases taken
      exact ⟨rfl, Or.inr (Or.inr rfl), Or.inr (Or.inr rfl), Or.inl ⟨at_, rfl⟩⟩
  case cmdMoved =>
      cases taken
      exact ⟨rfl, Or.inr (Or.inr rfl), Or.inl at_, Or.inr ⟨rfl, before at_ rfl⟩⟩
  case setMoved =>
      cases taken
      exact ⟨rfl, Or.inr (Or.inr rfl), Or.inr (Or.inl at_), Or.inr ⟨rfl, before at_ rfl⟩⟩
  case copy => split at taken <;> cases taken <;> exact .of_same rfl rfl rfl rfl (before at_ rfl)
  case forceOn =>
      cases taken
      exact ⟨rfl, Or.inl ⟨at_, rfl⟩, Or.inr (Or.inr rfl), Or.inr ⟨rfl, before at_ rfl⟩⟩
  case pollDone =>
      cases taken
      refine .of_same rfl rfl rfl rfl ?_
      dsimp only
      split <;> exact fun copying => by cases copying
  case pollWritten =>
      split at taken <;> cases taken <;> exact .of_same rfl rfl rfl rfl (before at_ rfl)
  case forceOff =>
      cases taken
      exact ⟨rfl, Or.inr (Or.inl ⟨at_, rfl⟩), Or.inr (Or.inr rfl),
        Or.inr ⟨rfl, fun copying => by cases copying⟩⟩
  all_goals
    cases taken
    exact .of_same rfl rfl rfl rfl (before at_ rfl)

/-- While the network core runs, the bytes moved only grow. -/
theorem appStep_grown {u : Update} {m m' : Machine} (turn : Turn u m)
    (taken : appStep u m = some m') (on : m.net ≠ .off) :
    m.cmd.bytesMoved ≤ m'.cmd.bytesMoved := by
  rcases (appStep_frame taken).moved with at_ | at_ | same
  · exact absurd (turn.off_of_starting (by rw [at_]; rfl)) on
  · obtain ⟨_, done⟩ := turn.filling_of_working (by rw [at_]; rfl) (by rw [at_]; rfl)
    rw [at_] at done
    obtain ⟨sum, _⟩ := done
    rw [sum]
    exact Nat.le_add_right _ _
  · exact Nat.le_of_eq same.symm

theorem appStep_knows {u : Update} (image : u.External) {m m' : Machine} (inv : Inv u m)
    (taken : appStep u m = some m') : NetKnows u m'.cmd.bytesMoved m'.net := by
  rcases (appStep_frame taken).net with ⟨_, net⟩ | ⟨_, net⟩ | net
  · rw [net]; trivial
  · rw [net]; trivial
  · by_cases on : m.net = .off
    · rw [net, on]; trivial
    · have loaded := (appStep_turn image inv taken).loaded (by rw [net]; exact on)
      rw [net]
      exact inv.knows.mono (appStep_grown inv.turn taken on) loaded.moved

theorem appStep_magic {u : Update} {m m' : Machine} (inv : Inv u m)
    (taken : appStep u m = some m') : Magic m' := by
  have frame := appStep_frame taken
  have net : m'.net = .halted → m.net = .halted := by
    intro halted
    rcases frame.net with ⟨_, net⟩ | ⟨_, net⟩ | net
    · exact absurd (net.symm.trans halted) (by simp)
    · exact absurd (net.symm.trans halted) (by simp)
    · exact net.symm.trans halted
  rcases frame.magic with ⟨at_, set⟩ | ⟨same, copying⟩
  · have off : m.net = .off := inv.turn.off_of_starting (by rw [at_]; rfl)
    exact ⟨fun _ _ => set, fun halted => absurd (off.symm.trans (net halted)) (by simp)⟩
  · refine ⟨fun now running => ?_, fun halted => ?_⟩
    · rw [same]
      refine inv.magic.copy (copying now) fun halted => running ?_
      rcases frame.net with ⟨on, _⟩ | ⟨off, _⟩ | net
      · exact absurd ((inv.turn.off_of_forceOn on).symm.trans halted) (by simp)
      · have still := copying now
        rw [off] at still
        cases still
      · exact net.trans halted
    · rw [same]
      exact inv.magic.halted (net halted)

end NcsExp.Pcd
