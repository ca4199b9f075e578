/-
# NcsExp.Pcd.NetSteps -- the network core's steps keep the turns

Outside the hand-over a step of the network core leaves the turn as it is
(`netStep_quiet`, `Turn.quiet`); within it, the full buffer is read, byte by byte,
and handed back (`netStep_reading`).  `netStep_turn` joins the two; then the bytes
moved (`netStep_knows`) and the magic value (`netStep_magic`).
-/
import Mathlib.Tactic.Tauto
import NcsExp.Pcd.Turns

namespace NcsExp.Pcd

open NcsExp.Theory

set_option autoImplicit false

/-! ## Outside the hand-over -/

/-- The view after a step of the network core that does not hold the buffer: only
the buffer may change, and only once the network core has left its loop. -/
structure View.Follows (v v' : View) : Prop where
  data : v'.data = v.data
  len : v'.len = v.len
  imageChunk : v'.imageChunk = v.imageChunk
  chunkLen : v'.chunkLen = v.chunkLen
  bytesMoved : v'.bytesMoved = v.bytesMoved
  flash : v'.flash = v.flash
  live : v'.left = false → v.left = false ∧ v'.ram = v.ram

section

variable {u : Update} {v v' : View}

theorem Loaded.follows (loaded : Loaded u v) (follows : v.Follows v') : Loaded u v' where
  data := follows.data.trans loaded.data
  len := follows.len.trans loaded.len
  moved := follows.bytesMoved.symm ▸ loaded.moved

theorem Flashed.follows {n : Nat} (flashed : Flashed u v n) (follows : v.Follows v') :
    Flashed u v' n :=
  follows.flash.trans flashed

theorem Shows.follows {first n : Nat} (shows : Shows u v first n) (follows : v.Follows v') :
    Shows u v' first n := by
  intro left i below
  obtain ⟨before, same⟩ := follows.live left
  rw [same]
  exact shows before i below

theorem Sized.follows (sized : Sized u v) (follows : v.Follows v') : Sized u v' where
  imageChunk := follows.imageChunk.trans sized.imageChunk
  page := follows.chunkLen.symm ▸ sized.page
  room := by rw [follows.bytesMoved, follows.chunkLen]; exact sized.room
  flashed := by rw [follows.bytesMoved]; exact sized.flashed.follows follows

theorem Full.follows (full : Full u v) (follows : v.Follows v') : Full u v' where
  imageChunk := follows.imageChunk.trans full.imageChunk
  page := follows.chunkLen.symm ▸ full.page
  moved := by rw [follows.bytesMoved, follows.chunkLen]; exact full.moved
  flashed := by rw [follows.bytesMoved, follows.chunkLen]; exact full.flashed.follows follows
  shows := by rw [follows.bytesMoved, follows.chunkLen]; exact full.shows.follows follows

theorem Filling.follows {pc : AppPc} (done : Filling u v pc) (follows : v.Follows v') :
    Filling u v' pc := by
  have flashed : ∀ {n}, Flashed u v n → Flashed u v' n := fun front => front.follows follows
  have sized : Sized u v → Sized u v' := fun before => before.follows follows
  have shows : ∀ {first n}, Shows u v first n → Shows u v' first n :=
    fun before => before.follows follows
  have full : Full u v → Full u v' := fun before => before.follows follows
  cases pc <;> first | exact done.elim | skip
  all_goals
    simp only [Filling, follows.imageChunk, follows.chunkLen, follows.bytesMoved] at done ⊢
    tauto

end

/-- A step of the network core outside the hand-over. -/
structure Quiet (m m' : Machine) : Prop where
  app : m'.app = m.app
  caller : m'.caller = m.caller
  available : m'.cmd.imageChunkAvailable = m.cmd.imageChunkAvailable
  written : m'.cmd.imageChunkWritten = m.cmd.imageChunkWritten
  view : m.view.Follows m'.view
  seen : m'.net.holding = true → m.cmd.imageChunkAvailable = true ∧ m'.net = .chunkPtr

/-- A step that changes the program counter alone. -/
theorem Quiet.jump {m : Machine} {pc : NetPc} {offset : Nat}
    (left : pc.left = false → m.net.left = false)
    (seen : pc.holding = true → m.cmd.imageChunkAvailable = true ∧ pc = .chunkPtr) :
    Quiet m { m with net := pc, streamOffset := offset } where
  app := rfl
  caller := rfl
  available := rfl
  written := rfl
  view := ⟨rfl, rfl, rfl, rfl, rfl, rfl, fun after => ⟨left after, rfl⟩⟩
  seen := seen

theorem netStep_quiet {u : Update} {m m' : Machine} {answer : Int}
    (knows : NetKnows u m.cmd.bytesMoved m.net) (idle : m.net.holding = false)
    (taken : netStep u m answer = some m') : Quiet m m' := by
  unfold netStep at taken
  cases at_ : m.net <;> simp only [at_] at taken idle knows <;> try cases idle
  case off => cases taken
  case status =>
      cases taken
      exact Quiet.jump (fun _ => by rw [at_]; rfl) (by split <;> simp [NetPc.holding])
  case dataPtr =>
      cases taken
      exact Quiet.jump (fun _ => by rw [at_]; rfl) (by split <;> simp [NetPc.holding])
  case validateSrc => exact knows.elim
  case copyMagic =>
      cases taken
      exact Quiet.jump (fun _ => by rw [at_]; rfl) (by split <;> simp [NetPc.holding])
  case init =>
      cases taken
      exact Quiet.jump (fun _ => by rw [at_]; rfl) (by split <;> simp [NetPc.holding])
  case copyData =>
      cases taken
      exact Quiet.jump (fun _ => by rw [at_]; rfl) (by split <;> simp [NetPc.holding])
  case internalData => exact knows.elim
  case internalLen => exact knows.elim
  case loopMoved =>
      cases taken
      exact Quiet.jump (fun _ => by rw [at_]; rfl) (by simp [NetPc.holding])
  case loopLen =>
      cases taken
      exact Quiet.jump (fun _ => by rw [at_]; rfl) (by split <;> simp [NetPc.holding])
  case loopAvailable =>
      cases taken
      refine Quiet.jump (fun _ => by rw [at_]; rfl) ?_
      split
      · rename_i available
        exact fun _ => ⟨available, rfl⟩
      · simp [NetPc.holding]
  case memsetDst =>
      cases taken
      exact Quiet.jump (by simp [NetPc.left]) (by simp [NetPc.holding])
  case memset =>
      split at taken
      · cases taken
        exact ⟨rfl, rfl, rfl, rfl,
          ⟨rfl, rfl, rfl, rfl, rfl, rfl, by simp [Machine.view, NetPc.left]⟩,
          by simp [NetPc.holding]⟩
      · cases taken
        exact Quiet.jump (by simp [NetPc.left]) (by simp [NetPc.holding])
  case copyReturned =>
      cases taken
      exact Quiet.jump (by split <;> simp [NetPc.left]) (by split <;> simp [NetPc.holding])
  case validate =>
      cases taken
      exact Quiet.jump (by split <;> simp [NetPc.left]) (by split <;> simp [NetPc.holding])
  case done =>
      cases taken
      exact ⟨rfl, rfl, rfl, rfl, ⟨rfl, rfl, rfl, rfl, rfl, rfl, by simp [Machine.view, NetPc.left]⟩,
        by simp [NetPc.holding]⟩
  case invalidate =>
      cases taken
      exact ⟨rfl, rfl, rfl, rfl, ⟨rfl, rfl, rfl, rfl, rfl, rfl, by simp [Machine.view, NetPc.left]⟩,
        by simp [NetPc.holding]⟩
  case halted => cases taken
  case boot => cases taken

/-- Outside the hand-over the network core leaves the turn as it is. -/
theorem Turn.quiet {u : Update} {m m' : Machine} (turn : Turn u m) (idle : m.net.holding = false)
    (on : m.net ≠ .off) (halted : m.net ≠ .halted) (quiet : Quiet m m') : Turn u m' := by
  cases turn with
  | starting _ net => exact absurd net on
  | filling net off available written cleared loaded done =>
      have again : m.caller = .pcdNetworkCoreUpdate := by
        cases who : m.caller with
        | pcdCmdWrite => exact absurd (off who) on
        | pcdNetworkCoreUpdate => rfl
      refine .filling ?_ ?_ ?_ ?_ ?_ (loaded.follows quiet.view) ?_
      · by_cases holding : m'.net.holding = true
        · exact absurd ((available again).symm.trans (quiet.seen holding).1) (by simp)
        · exact Bool.eq_false_iff.mpr holding
      · rw [quiet.caller]
        exact fun other => absurd (again.symm.trans other) (by simp)
      · rw [quiet.caller, quiet.available]; exact available
      · rw [quiet.caller, quiet.app, quiet.written]; exact written
      · rw [quiet.app, quiet.written]; exact cleared
      · rw [quiet.app]; exact done.follows quiet.view
  | full app available written off loaded done =>
      rw [reading_of_not_holding idle] at done
      refine .full ?_ ?_ ?_ ?_ (loaded.follows quiet.view) ?_
      · rw [quiet.app]; exact app
      · rw [quiet.available]; exact available
      · rw [quiet.written]; exact written
      · rw [quiet.app]
        exact fun at_ => absurd (off at_) on
      · by_cases holding : m'.net.holding = true
        · rw [(quiet.seen holding).2]
          exact done.follows quiet.view
        · rw [reading_of_not_holding (Bool.eq_false_iff.mpr holding)]
          exact done.follows quiet.view
  | drained _ _ _ _ net =>
      rw [net] at idle
      cases idle
  | empty app forceOn available written net loaded flashed =>
      refine .empty ?_ ?_ ?_ ?_ ?_ (loaded.follows quiet.view) ?_
      · rw [quiet.app]; exact app
      · rw [quiet.app]; exact forceOn
      · rw [quiet.available]; exact available
      · rw [quiet.written]; exact written
      · by_cases holding : m'.net.holding = true
        · exact absurd (available.symm.trans (quiet.seen holding).1) (by simp)
        · exact Bool.eq_false_iff.mpr holding
      · rw [show m'.cmd.bytesMoved = m.cmd.bytesMoved from quiet.view.bytesMoved]
        exact flashed.follows quiet.view
  | ended _ net =>
      rcases net with net | net
      · exact absurd net halted
      · exact absurd net on

/-- The bytes of the last chunk end the front of the image that has been moved. -/
theorem flashed_append {u : Update} {v : View} {got : List UInt8} (full : Full u v)
    (read : got = u.rom.load (u.srcAddr + (v.bytesMoved - v.chunkLen)) got.length)
    (all : got.length = v.chunkLen) : v.flash ++ got = u.rom.load u.srcAddr v.bytesMoved := by
  have moved := full.moved
  rw [full.flashed, read, ← Memory.load_add, all, Nat.sub_add_cancel moved]

theorem netStep_reading {u : Update} {m m' : Machine} {answer : Int}
    (holding : m.net.holding = true) (app : m.app.polling = true) (on : m.app ≠ .forceOn)
    (available : m.cmd.imageChunkAvailable = true) (written : m.cmd.imageChunkWritten = false)
    (loaded : Loaded u m.view) (done : Reading u m.view m.net)
    (taken : netStep u m answer = some m') : Turn u m' := by
  have off : ∀ {p : Prop}, m.app = .forceOn → p := fun forceOn => absurd forceOn on
  unfold netStep at taken
  cases at_ : m.net <;> simp only [at_] at taken holding done <;> try cases holding
  case chunkPtr =>
      cases taken
      have full : Full u m.view := done
      refine .full app available written off ⟨loaded.data, loaded.len, loaded.moved⟩
        ⟨full.imageChunk, full.follows ⟨rfl, rfl, rfl, rfl, rfl, rfl, fun _ => ⟨?_, rfl⟩⟩⟩
      show m.net.left = false
      rw [at_]
      rfl
  case chunkLen src =>
      cases taken
      obtain ⟨rfl, full⟩ := done
      refine .full app available written off ⟨loaded.data, loaded.len, loaded.moved⟩
        ⟨rfl, rfl, Nat.zero_le _, rfl,
          full.follows ⟨rfl, rfl, rfl, rfl, rfl, rfl, fun _ => ⟨?_, rfl⟩⟩⟩
      show m.net.left = false
      rw [at_]
      rfl
  case chunkRead src n got =>
      obtain ⟨rfl, rfl, bound, read, full⟩ := done
      have live : m.view.left = false := by
        show m.net.left = false
        rw [at_]
        rfl
      split at taken
      · -- One more byte of the chunk.
        rename_i more
        cases taken
        refine .full app available written off ⟨loaded.data, loaded.len, loaded.moved⟩
          ⟨rfl, rfl, ?_, ?_, full.follows ⟨rfl, rfl, rfl, rfl, rfl, rfl, fun _ => ⟨live, rfl⟩⟩⟩
        · rw [List.length_append]
          exact more
        · have next : m.ram (u.shmStartAddr + got.length) = _ := full.shows live got.length more
          rw [List.length_append, List.length_singleton, Memory.load_succ, next]
          exact congrArg (· ++ [_]) read
      · rename_i all
        have size : got.length = m.view.chunkLen := Nat.le_antisymm bound (Nat.not_lt.mp all)
        split at taken
        · cases taken
          exact .full app available written off ⟨loaded.data, loaded.len, loaded.moved⟩
            (flashed_append full read size)
        · cases taken
          exact .full app available written off ⟨loaded.data, loaded.len, loaded.moved⟩
            (full.follows ⟨rfl, rfl, rfl, rfl, rfl, rfl, fun _ => ⟨live, rfl⟩⟩)
  case clearAvailable =>
      cases taken
      exact .drained app on rfl written rfl ⟨loaded.data, loaded.len, loaded.moved⟩ done
  case setWritten => exact done.elim

/-- **The network core's step.** -/
theorem netStep_turn {u : Update} {m m' : Machine} {answer : Int} (inv : Inv u m)
    (taken : netStep u m answer = some m') : Turn u m' := by
  by_cases holding : m.net.holding = true
  · obtain ⟨app, on, written, loaded, turns⟩ := inv.turn.holding holding
    rcases turns with ⟨available, done⟩ | ⟨available, net, flashed⟩
    · exact netStep_reading holding app on available written loaded done taken
    · simp only [netStep, net, Option.some.injEq] at taken
      subst taken
      exact .empty app on available rfl rfl ⟨loaded.data, loaded.len, loaded.moved⟩ flashed
  · have idle : m.net.holding = false := Bool.eq_false_iff.mpr holding
    refine inv.turn.quiet idle ?_ ?_ (netStep_quiet inv.knows idle taken)
    · intro off
      simp [netStep, off] at taken
    · intro halted
      simp [netStep, halted] at taken

/-! ## The bytes moved and the magic value -/

theorem netStep_knows {u : Update} (image : u.External) {m m' : Machine} {answer : Int}
    (inv : Inv u m) (taken : netStep u m answer = some m') :
    NetKnows u m'.cmd.bytesMoved m'.net := by
  have on : m.net ≠ .off := by
    intro off
    simp [netStep, off] at taken
  have halted : m.net ≠ .halted := by
    intro halted
    simp [netStep, halted] at taken
  have knows := inv.knows
  have loaded := inv.turn.loaded on
  have copying := inv.copying on halted
  have external : ¬ m.cmd.data < EXTERNAL_FLASH := Nat.not_lt.mpr (loaded.external image)
  unfold netStep at taken
  cases at_ : m.net <;> simp only [at_] at taken knows
  case off => exact absurd at_ on
  case status =>
      rw [if_pos copying] at taken
      cases taken
      trivial
  case dataPtr =>
      rw [if_neg external] at taken
      cases taken
      trivial
  case copyMagic =>
      rw [if_neg (fun other => other copying)] at taken
      cases taken
      trivial
  case init =>
      cases taken
      show NetKnows u _ (if _ then _ else _)
      split
      · rename_i failed
        exact fun success => absurd success failed
      · trivial
  case copyData =>
      rw [if_neg external] at taken
      cases taken
      trivial
  case loopMoved =>
      cases taken
      exact Nat.le_refl _
  case loopLen read =>
      cases taken
      show NetKnows u _ (if _ then _ else _)
      split
      · trivial
      · rename_i last
        have len : m.cmd.len = u.len := loaded.len
        have bound : m.cmd.bytesMoved ≤ u.len := loaded.moved
        have seen : read ≤ m.cmd.bytesMoved := knows
        intro _
        show m.cmd.bytesMoved = u.len
        omega
  case loopAvailable =>
      cases taken
      show NetKnows u _ (if _ then _ else _)
      split <;> trivial
  case chunkRead =>
      split at taken
      · cases taken
        trivial
      · split at taken
        · cases taken
          trivial
        · rename_i failed
          cases taken
          exact fun success => absurd success failed
  case memsetDst =>
      cases taken
      exact knows
  case memset =>
      split at taken <;> cases taken <;> exact knows
  case copyReturned rc =>
      cases taken
      show NetKnows u _ (if _ then _ else _)
      split
      · rename_i success
        exact knows success
      · trivial
  case validate =>
      cases taken
      show NetKnows u _ (if _ then _ else _)
      split
      · exact knows
      · trivial
  case halted => exact absurd at_ halted
  case validateSrc => exact knows.elim
  case internalData => exact knows.elim
  case internalLen => exact knows.elim
  case boot => exact knows.elim
  all_goals
    cases taken
    trivial

theorem done_ne_copy : PCD_CMD_MAGIC_DONE ≠ PCD_CMD_MAGIC_COPY := by decide

theorem fail_ne_copy : PCD_CMD_MAGIC_FAIL ≠ PCD_CMD_MAGIC_COPY := by decide

theorem netStep_magic {u : Update} {m m' : Machine} {answer : Int} (inv : Inv u m)
    (taken : netStep u m answer = some m') : Magic m' := by
  have on : m.net ≠ .off := by
    intro off
    simp [netStep, off] at taken
  have running : m.net ≠ .halted := by
    intro halted
    simp [netStep, halted] at taken
  have copying := inv.copying on running
  have ended : (m'.net ≠ .halted ∧ m'.cmd.magic = m.cmd.magic) ∨
      (m'.net = .halted ∧ m'.cmd.magic ≠ PCD_CMD_MAGIC_COPY) := by
    unfold netStep at taken
    cases at_ : m.net <;> simp only [at_] at taken
    case off => cases taken
    case halted => cases taken
    case boot => cases taken
    case done => cases taken; exact Or.inr ⟨rfl, done_ne_copy⟩
    case invalidate => cases taken; exact Or.inr ⟨rfl, fail_ne_copy⟩
    case internalLen => split at taken <;> cases taken <;> exact Or.inl ⟨by simp, rfl⟩
    case memset => split at taken <;> cases taken <;> exact Or.inl ⟨by simp, rfl⟩
    case chunkRead =>
        split at taken
        · cases taken; exact Or.inl ⟨by simp, rfl⟩
        · split at taken <;> cases taken <;> exact Or.inl ⟨by simp, rfl⟩
    all_goals
      cases taken
      refine Or.inl ⟨?_, rfl⟩
      first
        | (dsimp only; split <;> simp)
        | simp
  rcases ended with ⟨net, same⟩ | ⟨net, other⟩
  · exact ⟨fun _ _ => same.trans copying, fun halted => absurd halted net⟩
  · exact ⟨fun _ halted => absurd net halted, fun _ => other⟩

end NcsExp.Pcd
