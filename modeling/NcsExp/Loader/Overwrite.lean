/-
# NcsExp.Loader.Overwrite -- an update that may be cut off anywhere

The loader built to overwrite the primary slot (`MCUBOOT_OVERWRITE_ONLY`, without
`MCUBOOT_OVERWRITE_ONLY_FAST`): `boot_copy_image`, lines 1034-1174, with `boot_copy_region`, lines
921-1018, and the boot around it.  Every erasing, and every chunk that is copied, is one step;
power can be taken at any of them, and each can fail (`Fault`).

A boot that cannot read the image of the secondary slot erases it, and one that is asked for a
revert by the trailer of the primary slot is no longer asked once that is erased.  In the runs
without either (`heeded`) one of the two slots holds, at every moment, an image that the loader can
start or will copy again (`never_without_image`), and the next boot that is left alone starts it
(`copied_again`).  A failed read loses the only image behind a copy that was cut off
(`read_failure_loses_image`).
-/
import NcsExp.Theory.NorFlash
import NcsExp.Theory.Runs
import NcsExp.Theory.Progress
import NcsExp.Loader.Model

namespace NcsExp.Loader.Overwrite

open NcsExp.Theory NorFlash

set_option autoImplicit false

/-! ## Data -/

/-- `sizeof buf` of `boot_copy_region`. -/
def bufSize : Nat := 1024

/-- The slots, which are of one size, and what the loader makes of their contents. -/
structure Build where
  primary : List Sector
  secondary : List Sector
  /-- The slots are compatible and `boot_swap_type_multi` answers TEST or PERM, for which it looks
  at the trailer of the secondary slot alone. -/
  test : Memory UInt8 → Bool
  /-- It answers REVERT, for which it looks at the trailers of the primary and the secondary
  slot. -/
  revert : Memory UInt8 → Memory UInt8 → Bool
  /-- `boot_validate_slot` succeeds. -/
  valid : List UInt8 → Bool
  /-- The reset vector in the secondary slot is that of the network core. -/
  network : Memory UInt8 → Bool

/-- The size of the first `n` sectors of the primary slot. -/
def Build.sizeOf (b : Build) (n : Nat) : Nat := ((b.primary.take n).map fun s => s.size.toNat).sum

/-- The size of a slot. -/
def Build.size (b : Build) : Nat := b.sizeOf b.primary.length

/-- The last sector of the secondary slot: where it begins and how long it is. -/
def Build.trailer (b : Build) : Nat × Nat :=
  let last := b.secondary.getLastD ⟨0, 0⟩
  ((last.off - (b.secondary.headD ⟨0, 0⟩).off).toNat, last.size.toNat)

/-- The next statement of the loader. -/
inductive Pc
  | prepare
  | eraseSector (sect size : Nat)
  | copy (size bytesCopied : Nat)
  | eraseHeader
  | eraseTrailer
  | validate
  | started
  | noImage
  | halted
  deriving DecidableEq

structure Machine where
  primary : Memory UInt8
  secondary : Memory UInt8
  pc : Pc

/-- What can fail in a statement. -/
inductive Fault
  /-- Its operation; before an update, the sectors or the header of the primary slot. -/
  | operation
  /-- Before an update, the header or the image of the secondary slot cannot be read. -/
  | secondary
  /-- Before an update, the trailers cannot be read, and the swap type is PANIC, or a slot is not
  opened, and an assertion fails. -/
  | panic
  /-- Before an update, the swap type is FAIL: the reset vector cannot be read, the secondary slot
  not be opened again, or the network core not be updated. -/
  | fail
  deriving DecidableEq

/-- The loader goes on, with a fault or without one; power is taken; the image that runs writes to
the secondary slot, or to its own trailer.  `left` is what an operation that is cut off leaves
behind. -/
inductive Act
  | run (fault : Option Fault) (left : Memory UInt8)
  | reset (left : Memory UInt8)
  | upload (contents : Memory UInt8)
  | confirm (contents : Memory UInt8)

/-- `chunk_sz`. -/
def chunkSz (sz bytesCopied : Nat) : Nat :=
  if sz - bytesCopied > bufSize then bufSize else sz - bytesCopied

variable (b : Build)

def Build.isValid (m : Memory UInt8) : Bool := b.valid (m.load 0 b.size)

/-- `BOOT_IS_UPGRADE` of what `boot_swap_type_multi` answers. -/
def Build.asked (m : Machine) : Bool := b.test m.secondary || b.revert m.primary m.secondary

/-- The image in the secondary slot is valid and for the application core. -/
def Build.upgrades (m : Memory UInt8) : Bool := b.isValid m && !b.network m

/-! ## Steps -/

/-- What the statement leaves behind if it is cut off. -/
def spoiled (m : Machine) (left : Memory UInt8) : Machine :=
  match m.pc with
  | .prepare =>
      if b.asked m && !b.upgrades m.secondary then { m with secondary := left } else m
  | .eraseSector sect size =>
      match b.primary[sect]? with
      | some sector => { m with primary := spoil m.primary size sector.size.toNat left }
      | none => m
  | .copy size n =>
      if n < size then { m with primary := spoil m.primary n (chunkSz size n) left } else m
  | .eraseHeader => { m with
      secondary := spoil m.secondary 0 (b.secondary.headD ⟨0, 0⟩).size.toNat left }
  | .eraseTrailer => { m with
      secondary := spoil m.secondary b.trailer.1 b.trailer.2 left }
  | .validate | .started | .noImage | .halted => m

/-- A statement whose operation succeeds. -/
def advance (m : Machine) (left : Memory UInt8) : Option Machine :=
  match m.pc with
  -- boot_prepare_image_for_update: an image that is not valid is erased, and the trailer of one
  -- that has been handed over to the network core
  | .prepare =>
      if b.asked m then
        if b.upgrades m.secondary then some { m with pc := .eraseSector 0 0 }
        else some { m with secondary := left, pc := .validate }
      else some { m with pc := .validate }
  -- boot_copy_image
  | .eraseSector sect size =>
      match b.primary[sect]? with
      | some sector => some { m with
          primary := erase m.primary size sector.size.toNat
          pc := .eraseSector (sect + 1) (size + sector.size.toNat) }
      | none => some { m with pc := .copy size 0 }
  -- boot_copy_region
  | .copy size n =>
      if n < size then
        some { m with
          primary := program m.primary n (m.secondary.load n (chunkSz size n))
          pc := .copy size (n + chunkSz size n) }
      else some { m with pc := .eraseHeader }
  | .eraseHeader => some { m with
      secondary := erase m.secondary 0 (b.secondary.headD ⟨0, 0⟩).size.toNat, pc := .eraseTrailer }
  | .eraseTrailer => some { m with
      secondary := erase m.secondary b.trailer.1 b.trailer.2, pc := .validate }
  -- context_boot_go
  | .validate => some { m with pc := if b.isValid m.primary then .started else .noImage }
  | .started | .noImage | .halted => none

/-- A statement with a fault. -/
def failed (m : Machine) (left : Memory UInt8) : Fault → Option Machine
  | .operation =>
      match m.pc with
      -- there is no header of the primary slot to validate it with
      | .prepare | .validate => some { m with pc := .noImage }
      -- an assertion fails
      | .eraseSector _ _ | .copy _ _ | .eraseHeader | .eraseTrailer =>
          some { spoiled b m left with pc := .halted }
      | .started | .noImage | .halted => none
  -- what cannot be read is not valid, and is erased
  | .secondary =>
      if m.pc = .prepare then
        some { m with secondary := if b.asked m then left else m.secondary, pc := .validate }
      else none
  | .panic => if m.pc = .prepare then some { m with pc := .halted } else none
  | .fail => if m.pc = .prepare then some { m with pc := .validate } else none

def step (m : Machine) : Act → Option Machine
  | .run none left => advance b m left
  | .run (some fault) left => failed b m left fault
  | .reset left => some { spoiled b m left with pc := .prepare }
  | .upload contents => if m.pc = .started then some { m with secondary := contents } else none
  | .confirm contents =>
      if m.pc = .started ∧ b.isValid contents = true then some { m with primary := contents }
      else none

/-- The secondary slot is read, and nothing but its own trailer asks for the image in it. -/
def heeded (m : Machine) (a : Act) : Bool :=
  (match a with
    | .run (some .secondary) _ => false
    | _ => true) &&
  (match m.pc with
    | .prepare => b.test m.secondary || !b.revert m.primary m.secondary
    | _ => true)

/-! ## What every run keeps -/

/-- The image in the secondary slot will be copied. -/
def Pending (m : Machine) : Prop := b.test m.secondary = true ∧ b.upgrades m.secondary = true

/-- There is an image. -/
def Bootable (m : Machine) : Prop := b.isValid m.primary = true ∨ Pending b m

structure Erasing (m : Machine) (sect size : Nat) : Prop where
  valid : b.isValid m.secondary = true
  sized : size = b.sizeOf sect
  blank : Blank m.primary 0 size

structure Copying (m : Machine) (size n : Nat) : Prop where
  valid : b.isValid m.secondary = true
  sized : size = b.size
  within : n ≤ size
  copied : m.primary.load 0 n = m.secondary.load 0 n
  blank : Blank m.primary n (size - n)

/-- What is known at each statement. -/
def Inv (m : Machine) : Prop :=
  match m.pc with
  | .prepare | .validate | .noImage | .halted => Bootable b m
  | .eraseSector sect size => Pending b m ∧ Erasing b m sect size
  | .copy size n => Pending b m ∧ Copying b m size n
  | .eraseHeader | .eraseTrailer | .started => b.isValid m.primary = true

variable {b}

theorem Inv.bootable {m : Machine} (inv : Inv b m) : Bootable b m := by
  unfold Inv at inv
  split at inv
  case h_5 => exact .inr inv.1
  case h_6 => exact .inr inv.1
  all_goals first | exact inv | exact .inl inv

/-- The sectors are erased one behind the other. -/
theorem sizeOf_succ {sect : Nat} {sector : Sector} (found : b.primary[sect]? = some sector) :
    b.sizeOf (sect + 1) = b.sizeOf sect + sector.size.toNat := by
  obtain ⟨below, rfl⟩ := List.getElem?_eq_some_iff.mp found
  rw [Build.sizeOf, List.take_succ_eq_append_getElem below, List.map_append, List.sum_append]
  simp [Build.sizeOf]

theorem sizeOf_all {sect : Nat} (none : b.primary[sect]? = none) : b.sizeOf sect = b.size := by
  have all : b.primary.length ≤ sect := List.getElem?_eq_none_iff.mp none
  simp [Build.size, Build.sizeOf, List.take_of_length_le all]

theorem Erasing.next {m : Machine} {sect size : Nat} {sector : Sector}
    (erasing : Erasing b m sect size) (found : b.primary[sect]? = some sector) :
    Erasing b { m with
      primary := erase m.primary size sector.size.toNat
      pc := .eraseSector (sect + 1) (size + sector.size.toNat) } (sect + 1)
      (size + sector.size.toNat) where
  valid := erasing.valid
  sized := by rw [sizeOf_succ found, erasing.sized]
  blank := by
    have blank := erasing.blank.erase (n := sector.size.toNat)
    rwa [Nat.zero_add] at blank

theorem Copying.next {m : Machine} {size n : Nat} (copying : Copying b m size n)
    (more : n < size) :
    Copying b { m with
      primary := program m.primary n (m.secondary.load n (chunkSz size n))
      pc := .copy size (n + chunkSz size n) } size (n + chunkSz size n) := by
  have fits : n + chunkSz size n ≤ size := by
    unfold chunkSz
    split <;> omega
  have whole : size - n = chunkSz size n + (size - (n + chunkSz size n)) := by omega
  have blank : Blank m.primary n (chunkSz size n + (size - (n + chunkSz size n))) := by
    rw [← whole]
    exact copying.blank
  refine ⟨copying.valid, copying.sized, fits, ?_, blank.program (by simp)⟩
  have chunk : (program m.primary n (m.secondary.load n (chunkSz size n))).load n
      (m.secondary.load n (chunkSz size n)).length = m.secondary.load n (chunkSz size n) := by
    apply load_program
    intro a above below
    rw [Memory.length_load] at below
    exact blank a above (by omega)
  rw [Memory.length_load] at chunk
  rw [Memory.load_add, Memory.load_add, load_program_below (by omega), Nat.zero_add, chunk,
    copying.copied]

/-- Behind the copy the primary slot holds the image of the secondary one. -/
theorem Copying.same {m : Machine} {size n : Nat} (copying : Copying b m size n)
    (last : ¬ n < size) : m.primary.load 0 b.size = m.secondary.load 0 b.size := by
  have all : n = b.size := by
    have within := copying.within
    have whole := copying.sized
    omega
  rw [← all]
  exact copying.copied

theorem Copying.complete {m : Machine} {size n : Nat} (copying : Copying b m size n)
    (last : ¬ n < size) : b.isValid m.primary = true := by
  rw [Build.isValid, copying.same last]
  exact copying.valid

theorem isValid_of_upgrades {m : Memory UInt8} (upgrades : b.upgrades m = true) :
    b.isValid m = true :=
  (Bool.and_eq_true_iff.mp upgrades).1

/-- Wherever a statement is cut off there is still an image. -/
theorem Inv.spoiled {m : Machine} (inv : Inv b m) (left : Memory UInt8) :
    Bootable b (spoiled b m left) := by
  obtain ⟨primary, secondary, pc⟩ := m
  cases pc with
  | prepare =>
      by_cases discarded :
          (b.asked ⟨primary, secondary, .prepare⟩ && !b.upgrades secondary) = true
      · rw [Overwrite.spoiled, if_pos discarded]
        rcases inv with valid | ⟨-, upgrades⟩
        · exact .inl valid
        · have upgrades : b.upgrades secondary = true := upgrades
          simp [upgrades] at discarded
      · rw [Overwrite.spoiled, if_neg discarded]
        exact inv
  | eraseSector sect size =>
      have pending := inv.1
      simp only [Overwrite.spoiled]
      split
      · exact .inr pending
      · exact .inr pending
  | copy size n =>
      have pending := inv.1
      simp only [Overwrite.spoiled]
      split
      · exact .inr pending
      · exact .inr pending
  | eraseHeader => exact .inl inv
  | eraseTrailer => exact .inl inv
  | validate => exact inv
  | started => exact .inl inv
  | noImage => exact inv
  | halted => exact inv

theorem advance_inv {m m' : Machine} {left : Memory UInt8} (inv : Inv b m)
    (alone : m.pc = .prepare → b.asked m = true → b.test m.secondary = true)
    (taken : advance b m left = some m') : Inv b m' := by
  obtain ⟨primary, secondary, pc⟩ := m
  cases pc with
  | prepare =>
      simp only [advance] at taken
      split at taken
      · rename_i asked
        split at taken
        · rename_i upgrades
          cases taken
          exact ⟨⟨alone rfl asked, upgrades⟩, isValid_of_upgrades upgrades, by simp [Build.sizeOf],
            fun a _ below => by omega⟩
        · rename_i discarded
          cases taken
          exact .inl (inv.resolve_right fun pending => discarded pending.2)
      · cases taken
        exact inv
  | eraseSector sect size =>
      obtain ⟨pending, erasing⟩ := inv
      simp only [advance] at taken
      split at taken
      · rename_i sector found
        cases taken
        exact ⟨pending, erasing.next found⟩
      · rename_i all
        cases taken
        exact ⟨pending, erasing.valid, erasing.sized.trans (sizeOf_all all), Nat.zero_le _, rfl,
          erasing.blank⟩
  | copy size n =>
      obtain ⟨pending, copying⟩ := inv
      simp only [advance] at taken
      split at taken
      · rename_i more
        cases taken
        exact ⟨pending, copying.next more⟩
      · rename_i last
        cases taken
        exact copying.complete last
  | eraseHeader =>
      cases taken
      exact inv
  | eraseTrailer =>
      cases taken
      exact .inl inv
  | validate =>
      simp only [advance] at taken
      cases taken
      by_cases valid : b.isValid primary = true
      · rw [if_pos valid]
        exact valid
      · rw [if_neg valid]
        exact inv
  | started => cases taken
  | noImage => cases taken
  | halted => cases taken

/-- A statement that fails, while the secondary slot can be read, leads to where there only has to
be an image. -/
theorem failed_inv {m m' : Machine} {left : Memory UInt8} {fault : Fault} (inv : Inv b m)
    (other : fault ≠ .secondary) (taken : failed b m left fault = some m') : Inv b m' := by
  have bootable := inv.bootable
  have cutOff := inv.spoiled left
  obtain ⟨primary, secondary, pc⟩ := m
  cases fault with
  | operation =>
      cases pc <;> cases taken
      · exact bootable
      · exact cutOff
      · exact cutOff
      · exact cutOff
      · exact cutOff
      · exact bootable
  | secondary => exact absurd rfl other
  | panic | fail =>
      simp only [failed, Option.ite_none_right_eq_some] at taken
      obtain ⟨-, ended⟩ := taken
      cases ended
      exact bootable

/-- Where a boot begins, only the trailer of the secondary slot asks for its image. -/
theorem test_of_heeded {m : Machine} {a : Act} (met : heeded b m a = true)
    (begins : m.pc = .prepare) (asked : b.asked m = true) : b.test m.secondary = true := by
  simp only [heeded, begins, Bool.and_eq_true, Bool.or_eq_true, Bool.not_eq_true'] at met
  simp only [Build.asked, Bool.or_eq_true] at asked
  rcases met.2 with test | kept
  · exact test
  · exact asked.resolve_right fun revert => Bool.false_ne_true (kept.symm.trans revert)

theorem step_inv {m m' : Machine} {a : Act} (inv : Inv b m) (met : heeded b m a = true)
    (taken : step b m a = some m') : Inv b m' := by
  cases a with
  | run fault left =>
      cases fault with
      | none => exact advance_inv inv (test_of_heeded met) taken
      | some fault =>
          have other : fault ≠ .secondary := by
            rintro rfl
            simp [heeded] at met
          exact failed_inv inv other taken
  | reset left =>
      cases taken
      exact inv.spoiled left
  | upload contents =>
      simp only [step, Option.ite_none_right_eq_some] at taken
      obtain ⟨started, ended⟩ := taken
      cases ended
      simpa [Inv, started] using inv
  | confirm contents =>
      simp only [step, Option.ite_none_right_eq_some] at taken
      obtain ⟨⟨started, valid⟩, ended⟩ := taken
      cases ended
      simpa [Inv, started] using valid

variable (b) in
/-- The loader is at its beginning, and there is an image. -/
structure Init (m : Machine) : Prop where
  pc : m.pc = .prepare
  bootable : Bootable b m

theorem reachable_inv {m : Machine} (run : Reachable (step b) (Init b) (heeded b) m) :
    Inv b m := by
  refine run.invariant (fun s init => ?_) fun s a t inv met taken => step_inv inv met taken
  rw [Inv, init.pc]
  exact init.bootable

/-- **There is always an image.**  However often an update begins, is cut off by a reset anywhere,
fails and begins again, and whatever a cut off operation leaves behind: as long as no boot fails to
read the secondary slot or is asked for a revert by the primary one, in every state the primary
slot holds a valid image, or the secondary one holds a valid image that the loader will copy.  An
image that is started is valid. -/
theorem never_without_image {m : Machine} (run : Reachable (step b) (Init b) (heeded b) m) :
    Bootable b m ∧ (m.pc = .started → b.isValid m.primary = true) := by
  have inv := reachable_inv run
  refine ⟨inv.bootable, fun started => ?_⟩
  rwa [Inv, started] at inv

/-- Slots of one sector of two bytes; an image begins with 1, and 7 behind it asks for it. -/
def twoBytes : Build where
  primary := [⟨0, 2⟩]
  secondary := [⟨0, 2⟩]
  test m := m 1 == 7
  revert _ _ := false
  valid image := image.head? == some 1
  network _ := false

/-- An image is to be copied over another one. -/
def upgrade : Machine := ⟨fun _ => 1, fun i => if i = 0 then 1 else 7, .prepare⟩

theorem upgrade_init : Init twoBytes upgrade := ⟨rfl, .inl (by decide)⟩

/-- Power is taken while the primary slot is being erased. -/
theorem upgrade_cutOff :
    ∃ m, Reachable (step twoBytes) (Init twoBytes) (heeded twoBytes) m ∧
      (m.pc == .prepare && !twoBytes.isValid m.primary) = true :=
  exists_reachable_of_exec upgrade_init
    (show (exec (step twoBytes) (heeded twoBytes) upgrade [.run none fun _ => 0,
      .run none fun _ => 0, .reset fun _ => 0, .run none fun _ => 0,
      .reset fun _ => 0]).any _ = true by decide)

theorem never_without_image_cutOff :
    ∃ m, (m.pc == .prepare && !twoBytes.isValid m.primary) = true ∧
      Bootable twoBytes m ∧ (m.pc = .started → twoBytes.isValid m.primary = true) := by
  obtain ⟨m, run, cutOff⟩ := upgrade_cutOff
  exact ⟨m, cutOff, never_without_image run⟩

/-- Behind a copy that was cut off, a read that fails loses the only image. -/
theorem read_failure_loses_image :
    ∃ m, Reachable (step twoBytes) (Init twoBytes) unguarded m ∧ ¬ Bootable twoBytes m := by
  have found : (exec (step twoBytes) unguarded upgrade [.run none fun _ => 0, .reset fun _ => 0,
      .run (some .secondary) fun _ => 0xff]).any (fun m =>
        !twoBytes.isValid m.primary && !twoBytes.isValid m.secondary) = true := by
    decide
  obtain ⟨m, run, lost⟩ := exists_reachable_of_exec upgrade_init found
  rw [Bool.and_eq_true, Bool.not_eq_true', Bool.not_eq_true'] at lost
  refine ⟨m, run, ?_⟩
  rintro (valid | ⟨-, upgrades⟩)
  · exact Bool.false_ne_true (lost.1.symm.trans valid)
  · exact Bool.false_ne_true (lost.2.symm.trans (isValid_of_upgrades upgrades))

/-! ## A boot that is left alone -/

/-- The loader goes on without a fault. -/
def undisturbed : Act → Prop
  | .run fault _ => fault = none
  | .reset _ | .upload _ | .confirm _ => False

variable (b) in
/-- A boot with the image `image` in the secondary slot, from the copying on. -/
def Copies (image : List UInt8) (m : Machine) : Prop :=
  match m.pc with
  | .eraseSector sect size => Erasing b m sect size ∧ m.secondary.load 0 b.size = image
  | .copy size n => Copying b m size n ∧ m.secondary.load 0 b.size = image
  | .eraseHeader | .eraseTrailer | .validate => m.primary.load 0 b.size = image
  | _ => False

variable (b) in
/-- The image has been started. -/
def Starts (image : List UInt8) (m : Machine) : Prop :=
  m.pc = .started ∧ m.primary.load 0 b.size = image

variable (b) in
/-- What is left to do. -/
def rank (m : Machine) : Nat :=
  match m.pc with
  | .eraseSector sect _ => b.primary.length - sect + b.size + 6
  | .copy size n => size - n + 4
  | .eraseHeader => 3
  | .eraseTrailer => 2
  | _ => 1

theorem Copies.moves {image : List UInt8} (valid : b.valid image = true) {m : Machine}
    (copies : Copies b image m) :
    ∃ a t, undisturbed a ∧ step b m a = some t ∧
      (Starts b image t ∨ Copies b image t ∧ rank b t < rank b m) := by
  obtain ⟨primary, secondary, pc⟩ := m
  refine ⟨.run none primary, ?_⟩
  cases pc with
  | eraseSector sect size =>
      obtain ⟨erasing, same⟩ := copies
      cases found : b.primary[sect]? with
      | some sector =>
          have below := (List.getElem?_eq_some_iff.mp found).1
          have taken : step b ⟨primary, secondary, .eraseSector sect size⟩ (.run none primary) =
              some ⟨erase primary size sector.size.toNat, secondary,
                .eraseSector (sect + 1) (size + sector.size.toNat)⟩ := by
            simp only [step, advance, found]
          refine ⟨_, rfl, taken, .inr ⟨⟨erasing.next found, same⟩, ?_⟩⟩
          simp only [rank]
          omega
      | none =>
          have all := erasing.sized.trans (sizeOf_all found)
          have taken : step b ⟨primary, secondary, .eraseSector sect size⟩ (.run none primary) =
              some ⟨primary, secondary, .copy size 0⟩ := by
            simp only [step, advance, found]
          refine ⟨_, rfl, taken,
            .inr ⟨⟨⟨erasing.valid, all, Nat.zero_le _, rfl, erasing.blank⟩, same⟩, ?_⟩⟩
          simp only [rank]
          omega
  | copy size n =>
      obtain ⟨copying, same⟩ := copies
      by_cases more : n < size
      · have chunk : 0 < chunkSz size n := by
          unfold chunkSz bufSize
          split <;> omega
        have taken : step b ⟨primary, secondary, .copy size n⟩ (.run none primary) =
            some ⟨program primary n (secondary.load n (chunkSz size n)), secondary,
              .copy size (n + chunkSz size n)⟩ := by
          simp only [step, advance, if_pos more]
        refine ⟨_, rfl, taken, .inr ⟨⟨copying.next more, same⟩, ?_⟩⟩
        simp only [rank]
        omega
      · have taken : step b ⟨primary, secondary, .copy size n⟩ (.run none primary) =
            some ⟨primary, secondary, .eraseHeader⟩ := by
          simp only [step, advance, if_neg more]
        refine ⟨_, rfl, taken, .inr ⟨(copying.same more).trans same, ?_⟩⟩
        simp only [rank]
        omega
  | eraseHeader => exact ⟨_, rfl, rfl, .inr ⟨copies, Nat.lt_succ_self 2⟩⟩
  | eraseTrailer => exact ⟨_, rfl, rfl, .inr ⟨copies, Nat.lt_succ_self 1⟩⟩
  | validate =>
      have same : primary.load 0 b.size = image := copies
      have known : b.isValid primary = true := by rw [Build.isValid, same, valid]
      have taken : step b ⟨primary, secondary, .validate⟩ (.run none primary) =
          some ⟨primary, secondary, .started⟩ := by
        simp only [step, advance, if_pos known]
      exact ⟨_, rfl, taken, .inl ⟨rfl, same⟩⟩
  | prepare => exact absurd copies id
  | started => exact absurd copies id
  | noImage => exact absurd copies id
  | halted => exact absurd copies id

variable (b) in
/-- The image that a boot is to start. -/
def due (m : Machine) : List UInt8 :=
  if b.asked m && b.upgrades m.secondary then m.secondary.load 0 b.size
  else m.primary.load 0 b.size

theorem Bootable.due {m : Machine} (bootable : Bootable b m) : b.valid (due b m) = true := by
  unfold Overwrite.due
  split
  · rename_i both
    exact isValid_of_upgrades (Bool.and_eq_true_iff.mp both).2
  · rename_i other
    refine bootable.resolve_right fun pending => other ?_
    have asked : b.asked m = true := by rw [Build.asked, pending.1, Bool.true_or]
    rw [asked, pending.2, Bool.true_and]

/-- **The copy is done again.**  A boot that is left alone, whatever came before it, starts an
image: that of the secondary slot if it is asked for, valid and for the application core, as it is
when the boot begins, and the one of the primary slot as it is otherwise. -/
theorem copied_again {m : Machine} (run : Reachable (step b) (Init b) (heeded b) m)
    (begins : m.pc = .prepare) : ∃ t, Leads (step b) undisturbed m t ∧ Starts b (due b m) t := by
  have bootable := (reachable_inv run).bootable
  obtain ⟨primary, secondary, pc⟩ := m
  obtain rfl : pc = .prepare := begins
  -- the first statement decides what is copied
  have first : ∃ t, step b ⟨primary, secondary, .prepare⟩ (.run none primary) = some t ∧
      Copies b (due b ⟨primary, secondary, .prepare⟩) t := by
    by_cases asked : b.asked ⟨primary, secondary, .prepare⟩ = true
    · by_cases upgrades : b.upgrades secondary = true
      · refine ⟨⟨primary, secondary, .eraseSector 0 0⟩,
          by simp [step, advance, asked, upgrades], ?_⟩
        refine ⟨⟨isValid_of_upgrades upgrades, by simp [Build.sizeOf],
          fun a _ below => by omega⟩, ?_⟩
        simp [due, asked, upgrades]
      · exact ⟨⟨primary, primary, .validate⟩, by simp [step, advance, asked, upgrades],
          by simp [Copies, due, upgrades]⟩
    · exact ⟨⟨primary, secondary, .validate⟩, by simp [step, advance, asked],
        by simp [Copies, due, asked]⟩
  obtain ⟨t, taken, copies⟩ := first
  obtain ⟨w, leads, starts⟩ := Leads.exists_of_rank (rank b)
    (fun _ copies => copies.moves bootable.due) copies
  exact ⟨w, Leads.trans (.next .here (a := .run none primary) rfl taken) leads, starts⟩

theorem copied_again_cutOff :
    ∃ m t, (m.pc == .prepare && !twoBytes.isValid m.primary) = true ∧
      Leads (step twoBytes) undisturbed m t ∧ Starts twoBytes (due twoBytes m) t := by
  obtain ⟨m, run, cutOff⟩ := upgrade_cutOff
  have begins : m.pc = .prepare := by simpa using (Bool.and_eq_true_iff.mp cutOff).1
  obtain ⟨t, leads, starts⟩ := copied_again run begins
  exact ⟨m, t, cutOff, leads, starts⟩

end NcsExp.Loader.Overwrite
