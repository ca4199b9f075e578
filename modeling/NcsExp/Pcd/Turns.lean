/-
# NcsExp.Pcd.Turns -- whose turn it is, and what the buffer holds

The two flags and the program counters divide every run into turns (`Turn`): the
command is being written; the application core fills the buffer; the buffer is
full, and the network core may be reading it; the network core has emptied it and
not yet said so; it is empty, and the application core has not yet noticed; the
copy is over, and the application core has noticed.  In each turn the flash holds a
known front of the image and the buffer, when it is full, the chunk that follows.

`Inv` adds to the turn what the network core knows of the bytes moved and what the
magic value says.
-/
import NcsExp.Pcd.Model

namespace NcsExp.Pcd

open NcsExp.Theory

set_option autoImplicit false

/-! ## Kinds of statements -/

/-- The statements of `pcd_cmd_write` before the update it ends with. -/
def AppPc.starting : AppPc → Bool
  | .cmdTest => true
  | .cmdMagic => true
  | .cmdData => true
  | .cmdLen => true
  | .cmdOffset => true
  | .cmdMoved => true
  | _ => false

/-- The statements after `pcd_cmd_update`, as long as the copy is under way. -/
def AppPc.polling : AppPc → Bool
  | .forceOn => true
  | .pollMagic => true
  | .pollWritten => true
  | _ => false

/-- The application core has seen a copy that is no longer under way. -/
def AppPc.ended : AppPc → Bool
  | .pollDone => true
  | .forceOff => true
  | .returned _ => true
  | _ => false

/-- The network core has read `image_chunk_available` as true and not yet set
`image_chunk_written`. -/
def NetPc.holding : NetPc → Bool
  | .chunkPtr => true
  | .chunkLen _ => true
  | .chunkRead _ _ _ => true
  | .clearAvailable => true
  | .setWritten => true
  | _ => false

/-- The network core has left the loop of `pcd_fw_copy`. -/
def NetPc.left : NetPc → Bool
  | .memsetDst _ => true
  | .memset _ _ _ => true
  | .copyReturned _ => true
  | .validate => true
  | .done => true
  | .invalidate => true
  | .halted => true
  | _ => false

/-- The statements of `pcd_cmd_write` and `pcd_cmd_update`. -/
def AppPc.working (pc : AppPc) : Bool := !pc.polling && !pc.ended

/-- The magic value is written, and has not been seen to change. -/
def AppPc.copying : AppPc → Bool
  | .cmdTest => false
  | .cmdMagic => false
  | pc => !pc.ended

/-! ## What each turn knows -/

/-- What the turns speak of, apart from the flags: the command, the shared buffer and
the flash, and whether the network core has left its loop. -/
structure View where
  data : Nat
  len : Nat
  imageChunk : Nat
  chunkLen : Nat
  bytesMoved : Nat
  ram : Memory UInt8
  flash : List UInt8
  left : Bool

def Machine.view (m : Machine) : View where
  data := m.cmd.data
  len := m.cmd.len
  imageChunk := m.cmd.imageChunk
  chunkLen := m.cmd.chunkLen
  bytesMoved := m.cmd.bytesMoved
  ram := m.ram
  flash := m.flash
  left := m.net.left

section

variable (u : Update) (v : View)

/-- The command is written, and the bytes moved are within the image. -/
structure Loaded : Prop where
  data : v.data = u.srcAddr
  len : v.len = u.len
  moved : v.bytesMoved ≤ u.len

/-- The flash holds the first `n` bytes of the image. -/
def Flashed (n : Nat) : Prop := v.flash = u.rom.load u.srcAddr n

/-- The buffer shows the `n` bytes of the image from `first` on; the network core
clears it once it has left its loop. -/
def Shows (first n : Nat) : Prop :=
  v.left = false → ∀ i < n, v.ram (u.shmStartAddr + i) = u.rom (u.srcAddr + first + i)

/-- The size of the next chunk is set. -/
structure Sized : Prop where
  imageChunk : v.imageChunk = u.shmStartAddr
  page : v.chunkLen ≤ u.pageSize
  room : v.bytesMoved + v.chunkLen ≤ u.len
  flashed : Flashed u v v.bytesMoved

/-- The buffer holds the chunk that ends at `bytes_moved`. -/
structure Full : Prop where
  imageChunk : v.imageChunk = u.shmStartAddr
  page : v.chunkLen ≤ u.pageSize
  moved : v.chunkLen ≤ v.bytesMoved
  flashed : Flashed u v (v.bytesMoved - v.chunkLen)
  shows : Shows u v (v.bytesMoved - v.chunkLen) v.chunkLen

/-- What is written of the command when the application core comes to a statement of
`pcd_cmd_write`. -/
def Starting : AppPc → Prop
  | .cmdTest => True
  | .cmdMagic => True
  | .cmdData => True
  | .cmdLen => v.data = u.srcAddr
  | .cmdOffset => v.data = u.srcAddr ∧ v.len = u.len
  | .cmdMoved => v.data = u.srcAddr ∧ v.len = u.len
  | _ => False

/-- What is done of an update when the application core comes to a statement of
`pcd_cmd_update`. -/
def Filling : AppPc → Prop
  | .update => Flashed u v v.bytesMoved
  | .setImageChunk => Flashed u v v.bytesMoved
  | .getLen => v.imageChunk = u.shmStartAddr ∧ Flashed u v v.bytesMoved
  | .getMoved len => len = u.len ∧ v.imageChunk = u.shmStartAddr ∧ Flashed u v v.bytesMoved
  | .setChunkLen bytesLeft =>
      bytesLeft = u.len - v.bytesMoved ∧ v.imageChunk = u.shmStartAddr ∧ Flashed u v v.bytesMoved
  | .copyDst => Sized u v
  | .copyData dst => dst = u.shmStartAddr ∧ Sized u v
  | .copyMoved dst data => dst = u.shmStartAddr ∧ data = u.srcAddr ∧ Sized u v
  | .copyLen dst src => dst = u.shmStartAddr ∧ src = u.srcAddr + v.bytesMoved ∧ Sized u v
  | .copy dst src n i =>
      dst = u.shmStartAddr ∧ src = u.srcAddr + v.bytesMoved ∧ n = v.chunkLen ∧ i ≤ n ∧
        Sized u v ∧ Shows u v v.bytesMoved i
  | .addMoved => Sized u v ∧ Shows u v v.bytesMoved v.chunkLen
  | .addLen moved => moved = v.bytesMoved ∧ Sized u v ∧ Shows u v v.bytesMoved v.chunkLen
  | .setMoved sum =>
      sum = v.bytesMoved + v.chunkLen ∧ Sized u v ∧ Shows u v v.bytesMoved v.chunkLen
  | .clearWritten => Full u v
  | .setAvailable => Full u v
  | _ => False

/-- What is done with a full buffer when the network core comes to a statement. -/
def Reading : NetPc → Prop
  | .chunkLen src => src = u.shmStartAddr ∧ Full u v
  | .chunkRead src n got =>
      src = u.shmStartAddr ∧ n = v.chunkLen ∧ got.length ≤ n ∧
        got = u.rom.load (u.srcAddr + (v.bytesMoved - v.chunkLen)) got.length ∧ Full u v
  | .clearAvailable => Flashed u v v.bytesMoved
  | .setWritten => False
  | _ => Full u v

end

/-- The turns. -/
inductive Turn (u : Update) (m : Machine) : Prop
  | starting (caller : m.caller = .pcdCmdWrite) (net : m.net = .off) (flash : m.flash = [])
      (done : Starting u m.view m.app)
  | filling (net : m.net.holding = false) (off : m.caller = .pcdCmdWrite → m.net = .off)
      (available : m.caller = .pcdNetworkCoreUpdate → m.cmd.imageChunkAvailable = false)
      (written : m.caller = .pcdNetworkCoreUpdate → m.app ≠ .setAvailable →
        m.cmd.imageChunkWritten = true)
      (cleared : m.app = .setAvailable → m.cmd.imageChunkWritten = false)
      (loaded : Loaded u m.view) (done : Filling u m.view m.app)
  | full (app : m.app.polling = true) (available : m.cmd.imageChunkAvailable = true)
      (written : m.cmd.imageChunkWritten = false) (off : m.app = .forceOn → m.net = .off)
      (loaded : Loaded u m.view) (done : Reading u m.view m.net)
  | drained (app : m.app.polling = true) (on : m.app ≠ .forceOn)
      (available : m.cmd.imageChunkAvailable = false) (written : m.cmd.imageChunkWritten = false)
      (net : m.net = .setWritten) (loaded : Loaded u m.view)
      (flashed : Flashed u m.view m.cmd.bytesMoved)
  | empty (app : m.app.polling = true) (on : m.app ≠ .forceOn)
      (available : m.cmd.imageChunkAvailable = false) (written : m.cmd.imageChunkWritten = true)
      (net : m.net.holding = false) (loaded : Loaded u m.view)
      (flashed : Flashed u m.view m.cmd.bytesMoved)
  | ended (app : m.app.ended = true) (net : m.net = .halted ∨ m.net = .off)
      (magic : m.cmd.magic ≠ PCD_CMD_MAGIC_COPY) (loaded : Loaded u m.view)
      (flashed : ∃ n ≤ u.len, Flashed u m.view n)

/-- What the network core knows at a statement, in any turn, of the bytes moved. -/
def NetKnows (u : Update) (bytesMoved : Nat) : NetPc → Prop
  | .validateSrc => False
  | .internalData => False
  | .internalLen _ => False
  | .boot => False
  | .loopLen moved => moved ≤ bytesMoved
  | .memsetDst rc => rc = 0 → bytesMoved = u.len
  | .memset rc _ _ => rc = 0 → bytesMoved = u.len
  | .copyReturned rc => rc = 0 → bytesMoved = u.len
  | .validate => bytesMoved = u.len
  | .done => bytesMoved = u.len
  | _ => True

/-- The magic value says whether the copy is under way. -/
structure Magic (m : Machine) : Prop where
  copy : m.app.copying = true → m.net ≠ .halted → m.cmd.magic = PCD_CMD_MAGIC_COPY
  halted : m.net = .halted → m.cmd.magic ≠ PCD_CMD_MAGIC_COPY

structure Inv (u : Update) (m : Machine) : Prop where
  turn : Turn u m
  knows : NetKnows u m.cmd.bytesMoved m.net
  magic : Magic m

theorem init_inv (u : Update) {m : Machine} (init : Init m) : Inv u m where
  turn := .starting init.caller init.net init.flash (by rw [init.app]; trivial)
  knows := by rw [init.net]; trivial
  magic := by constructor <;> simp [init.app, init.net, AppPc.copying]

/-- Once the network core runs, the command is written. -/
theorem Turn.loaded {u : Update} {m : Machine} (turn : Turn u m) (on : m.net ≠ .off) :
    Loaded u m.view := by
  cases turn with
  | starting _ net => exact absurd net on
  | filling _ _ _ _ _ loaded => exact loaded
  | full _ _ _ _ loaded => exact loaded
  | drained _ _ _ _ _ loaded => exact loaded
  | empty _ _ _ _ _ loaded => exact loaded
  | ended _ _ _ loaded => exact loaded

/-! ## What the turn tells -/

/-- Until `bytes_moved` is raised the flash holds what it counts. -/
theorem Filling.flashed {u : Update} {v : View} {pc : AppPc} (done : Filling u v pc)
    (cleared : pc ≠ .clearWritten) (set : pc ≠ .setAvailable) : Flashed u v v.bytesMoved := by
  cases pc <;> simp only [Filling] at done
  case update => exact done
  case setImageChunk => exact done
  case getLen => exact done.2
  case getMoved => exact done.2.2
  case setChunkLen => exact done.2.2
  case copyDst => exact done.flashed
  case copyData => exact done.2.flashed
  case copyMoved => exact done.2.2.flashed
  case copyLen => exact done.2.2.flashed
  case copy =>
      obtain ⟨_, _, _, _, sized, _⟩ := done
      exact sized.flashed
  case addMoved => exact done.1.flashed
  case addLen => exact done.2.1.flashed
  case setMoved => exact done.2.1.flashed
  case clearWritten => exact absurd rfl cleared
  case setAvailable => exact absurd rfl set

/-- The flash holds a front of the image. -/
theorem Full.front {u : Update} {m : Machine} (full : Full u m.view) (loaded : Loaded u m.view) :
    ∃ n ≤ u.len, Flashed u m.view n :=
  ⟨_, Nat.le_trans (Nat.sub_le _ _) loaded.moved, full.flashed⟩

/-- The network core does nothing with a full buffer that it has not seen. -/
theorem reading_of_not_holding {u : Update} {v : View} {pc : NetPc} (net : pc.holding = false) :
    Reading u v pc = Full u v := by
  cases pc <;> first | rfl | cases net

/-- Only a network core that has ended leaves another magic value to be polled. -/
theorem Magic.halted_of_poll {m : Machine} (magic : Magic m) (at_ : m.app = .pollMagic)
    (other : m.cmd.magic ≠ PCD_CMD_MAGIC_COPY) : m.net = .halted := by
  by_cases halted : m.net = .halted
  · exact halted
  · exact absurd (magic.copy (by rw [at_]; rfl) halted) other

/-- The network core holds the buffer in the two turns in between. -/
theorem Turn.holding {u : Update} {m : Machine} (turn : Turn u m) (holding : m.net.holding = true) :
    m.app.polling = true ∧ m.app ≠ .forceOn ∧ m.cmd.imageChunkWritten = false ∧
      Loaded u m.view ∧
      ((m.cmd.imageChunkAvailable = true ∧ Reading u m.view m.net) ∨
        (m.cmd.imageChunkAvailable = false ∧ m.net = .setWritten ∧
          Flashed u m.view m.cmd.bytesMoved)) := by
  have on : m.net ≠ .off := by
    intro off
    rw [off] at holding
    cases holding
  cases turn with
  | starting _ net => exact absurd net on
  | filling net => exact absurd (net.symm.trans holding) (by simp)
  | full app available written off loaded done =>
      exact ⟨app, fun at_ => on (off at_), written, loaded, Or.inl ⟨available, done⟩⟩
  | drained app forceOn available written net loaded flashed =>
      exact ⟨app, forceOn, written, loaded, Or.inr ⟨available, net, flashed⟩⟩
  | empty _ _ _ _ net => exact absurd (net.symm.trans holding) (by simp)
  | ended _ net =>
      rcases net with net | net
      · rw [net] at holding
        cases holding
      · exact absurd net on

/-- The bytes moved only grow, within the image, while the network core runs. -/
theorem NetKnows.mono {u : Update} {moved moved' : Nat} {pc : NetPc}
    (knows : NetKnows u moved pc) (grown : moved ≤ moved') (bound : moved' ≤ u.len) :
    NetKnows u moved' pc := by
  have last : moved = u.len → moved' = u.len := fun same => by omega
  cases pc
  case loopLen read => exact Nat.le_trans knows grown
  case memsetDst => exact fun success => last (knows success)
  case memset => exact fun success => last (knows success)
  case copyReturned => exact fun success => last (knows success)
  case validate => exact last knows
  case done => exact last knows
  all_goals exact knows

/-- While the network core copies, the application core has started and not ended. -/
theorem Turn.copying {u : Update} {m : Machine} (turn : Turn u m) (on : m.net ≠ .off)
    (halted : m.net ≠ .halted) : m.app.copying = true := by
  have polls : m.app.polling = true → m.app.copying = true := by
    cases m.app <;> simp [AppPc.polling, AppPc.copying, AppPc.ended]
  cases turn with
  | starting _ net => exact absurd net on
  | filling _ _ _ _ _ _ done =>
      cases at_ : m.app <;> rw [at_] at done <;> first | rfl | exact done.elim
  | full app => exact polls app
  | drained app => exact polls app
  | empty app => exact polls app
  | ended _ net =>
      rcases net with net | net
      · exact absurd net halted
      · exact absurd net on

theorem Inv.copying {u : Update} {m : Machine} (inv : Inv u m) (on : m.net ≠ .off)
    (halted : m.net ≠ .halted) : m.cmd.magic = PCD_CMD_MAGIC_COPY :=
  inv.magic.copy (inv.turn.copying on halted) halted

/-- While the application core starts, the network core is held in reset. -/
theorem Turn.off_of_starting {u : Update} {m : Machine} (turn : Turn u m)
    (starting : m.app.starting = true) : m.net = .off := by
  have split : m.app.polling = false ∧ m.app.ended = false := by
    cases at_ : m.app <;> rw [at_] at starting <;> first | exact ⟨rfl, rfl⟩ | cases starting
  cases turn with
  | starting _ net => exact net
  | filling _ _ _ _ _ _ done =>
      cases at_ : m.app <;> rw [at_] at done starting <;> first | exact done.elim | cases starting
  | full app => exact absurd (split.1.symm.trans app) (by simp)
  | drained app => exact absurd (split.1.symm.trans app) (by simp)
  | empty app => exact absurd (split.1.symm.trans app) (by simp)
  | ended app => exact absurd (split.2.symm.trans app) (by simp)

/-- The network core is released while it is held in reset. -/
theorem Turn.off_of_forceOn {u : Update} {m : Machine} (turn : Turn u m)
    (forceOn : m.app = .forceOn) : m.net = .off := by
  cases turn with
  | starting _ net => exact net
  | filling _ _ _ _ _ _ done =>
      rw [forceOn] at done
      exact done.elim
  | full _ _ _ off => exact off forceOn
  | drained _ on => exact absurd forceOn on
  | empty _ on => exact absurd forceOn on
  | ended app =>
      rw [forceOn] at app
      cases app

/-- The command names an address in external flash. -/
theorem Loaded.external {u : Update} {v : View} (loaded : Loaded u v) (image : u.External) :
    EXTERNAL_FLASH ≤ v.data := by
  rw [loaded.data]
  exact image.external

/-- A core that works on an update has either started it or is filling the buffer. -/
theorem Turn.working {u : Update} {m : Machine} (turn : Turn u m)
    (working : m.app.working = true) :
    Starting u m.view m.app ∨ (Loaded u m.view ∧ Filling u m.view m.app) := by
  simp only [AppPc.working, Bool.and_eq_true, Bool.not_eq_true'] at working
  cases turn with
  | starting _ _ _ done => exact Or.inl done
  | filling _ _ _ _ _ loaded done => exact Or.inr ⟨loaded, done⟩
  | full app => exact absurd (working.1.symm.trans app) (by simp)
  | drained app => exact absurd (working.1.symm.trans app) (by simp)
  | empty app => exact absurd (working.1.symm.trans app) (by simp)
  | ended app => exact absurd (working.2.symm.trans app) (by simp)

/-- Past `pcd_cmd_write` the command is written. -/
theorem Turn.loaded_of_started {u : Update} {m : Machine} (turn : Turn u m)
    (started : m.app.starting = false) : Loaded u m.view := by
  cases turn with
  | starting _ _ _ done => cases at_ : m.app <;> rw [at_] at done started <;>
      first | exact done.elim | cases started
  | filling _ _ _ _ _ loaded => exact loaded
  | full _ _ _ _ loaded => exact loaded
  | drained _ _ _ _ _ loaded => exact loaded
  | empty _ _ _ _ _ loaded => exact loaded
  | ended _ _ _ loaded => exact loaded

/-- A core that is at a statement of `pcd_cmd_update` is filling the buffer. -/
theorem Turn.filling_of_working {u : Update} {m : Machine} (turn : Turn u m)
    (working : m.app.working = true) (started : m.app.starting = false) :
    Loaded u m.view ∧ Filling u m.view m.app := by
  rcases turn.working working with done | both
  · cases at_ : m.app <;> rw [at_] at done started <;> first | exact done.elim | cases started
  · exact both

/-- While the magic value stands the application core goes on. -/
theorem Turn.not_ended {u : Update} {m : Machine} (turn : Turn u m)
    (magic : m.cmd.magic = PCD_CMD_MAGIC_COPY) : m.app.ended = false := by
  cases turn with
  | starting _ _ _ done => cases at_ : m.app <;> rw [at_] at done <;> first | rfl | exact done.elim
  | filling _ _ _ _ _ _ done =>
      cases at_ : m.app <;> rw [at_] at done <;> first | rfl | exact done.elim
  | full app => cases at_ : m.app <;> rw [at_] at app <;> first | rfl | cases app
  | drained app => cases at_ : m.app <;> rw [at_] at app <;> first | rfl | cases app
  | empty app => cases at_ : m.app <;> rw [at_] at app <;> first | rfl | cases app
  | ended _ _ other => exact absurd magic other

/-- The network core is released with a full buffer. -/
theorem Turn.full_of_forceOn {u : Update} {m : Machine} (turn : Turn u m)
    (forceOn : m.app = .forceOn) :
    m.cmd.imageChunkAvailable = true ∧ m.cmd.imageChunkWritten = false := by
  cases turn with
  | starting _ _ _ done =>
      rw [forceOn] at done
      exact done.elim
  | filling _ _ _ _ _ _ done =>
      rw [forceOn] at done
      exact done.elim
  | full _ available written => exact ⟨available, written⟩
  | drained _ on => exact absurd forceOn on
  | empty _ on => exact absurd forceOn on
  | ended app =>
      rw [forceOn] at app
      cases app

theorem Turn.cleared_of_setAvailable {u : Update} {m : Machine} (turn : Turn u m)
    (set : m.app = .setAvailable) : m.cmd.imageChunkWritten = false := by
  cases turn with
  | starting _ _ _ done =>
      rw [set] at done
      exact done.elim
  | filling _ _ _ _ cleared => exact cleared set
  | full _ _ written => exact written
  | drained _ _ _ written => exact written
  | empty app =>
      rw [set] at app
      cases app
  | ended app =>
      rw [set] at app
      cases app

end NcsExp.Pcd
