/-
# NcsExp.Loader.Contracts -- what each function of the loader does

One triple for each function of `NcsExp.Loader.Model` up to the swap type: which slots it leaves
as they are, what it has of the headers, and what has been validated when it returns.
`Host.Lawful` is what the loader relies on in what it calls.
-/
import NcsExp.Loader.Model

namespace NcsExp.Loader

open NcsExp.Theory Std.Do

set_option autoImplicit false
set_option mvcgen.warning false

section

variable {ω : Type} {α : Type}

@[spec]
theorem call_spec (f : ω → α × ω) (Q : PostCond α (.arg (State ω) (.except PUnit .pure))) :
    ⦃fun s => Q.1 (f s.world).1 { s with world := (f s.world).2 }⦄ call f ⦃Q⦄ :=
  fun _ holds => holds

@[spec]
theorem panic_spec (Q : α → Assertion (.arg (State ω) (.except PUnit .pure))) :
    ⦃⌜True⌝⦄ (panic : Boot ω α) ⦃⇓? a => Q a⦄ :=
  fun _ _ => trivial

/-- What a triple says of one run. -/
theorem of_triple {x : Boot ω α} {P : State ω → Prop} {Q : α → State ω → Prop}
    (triple : ⦃fun s => ⌜P s⌝⦄ x ⦃⇓? a => fun s => ⌜Q a s⌝⦄) {s t : State ω} {a : α} (begins : P s)
    (ends : x s = some (a, t)) : Q a t := by
  have holds : (wp⟦x.run s⟧ (fun r => ⌜Q r.1 r.2⌝, ExceptConds.true)).down := triple s begins
  have run : x.run s = some (a, t) := ends
  rw [run] at holds
  exact holds

/-! ## What the loader relies on -/

variable (host : Host ω)

/-- The call only reads the slots. -/
def Host.Reads (f : ω → α × ω) : Prop := ∀ w, host.contents (f w).2 = host.contents w

/-- The call leaves the primary slot as it is. -/
def Host.Spares (f : ω → α × ω) : Prop :=
  ∀ w, host.contents (f w).2 .primary = host.contents w .primary

/-- With this status the header of a slot is at its beginning: no swap has begun, or one has come
to its end. -/
inductive Host.Settled : Option BootStatus → Prop
  | none : Settled none
  | reset {bs : BootStatus} (reset : bs.isReset = true) : Settled (some bs)
  | swapped (bs : BootStatus) (copySize : UInt32) (w : ω) :
      Settled (some (host.swapRun bs copySize w).1)

structure Host.Lawful : Prop where
  flashAreaOpen (slot : Slot) : host.Reads (host.flashAreaOpen slot)
  flashAreaGetSectors (slot : Slot) : host.Reads (host.flashAreaGetSectors slot)
  flashAreaRead (slot : Slot) (off : UInt32) (len : Nat) :
    host.Reads (host.flashAreaRead slot off len)
  bootReadImageHeader (slot : Slot) (bs : Option BootStatus) :
    host.Reads (host.bootReadImageHeader slot bs)
  bootutilImgValidate (hdr : ImageHeader) (slot : Slot) :
    host.Reads (host.bootutilImgValidate hdr slot)
  bootSlotsCompatible : host.Reads host.bootSlotsCompatible
  bootSwapTypeMulti : host.Reads host.bootSwapTypeMulti
  swapReadStatus (bs : BootStatus) : host.Reads (host.swapReadStatus bs)
  flashAreaErase : host.Spares (host.flashAreaErase .secondary)
  flashErase (off size : UInt32) : host.Spares (host.flashErase off size)
  swapEraseTrailerSectors : host.Spares (host.swapEraseTrailerSectors .secondary)
  pcdNetworkCoreUpdate (table fwSize : UInt32) :
    host.Spares (host.pcdNetworkCoreUpdate table fwSize)
  headerRead {slot : Slot} {bs : Option BootStatus} (settled : host.Settled bs) {w : ω}
    (read : (host.bootReadImageHeader slot bs w).1.1 = 0) :
    (host.bootReadImageHeader slot bs w).1.2 = .read (host.contents w slot)

/-- From `w` on, the header `h` of the primary slot is read where the interrupted swap of which `bs`
is the status has left it, and then that of the secondary slot cannot be read. -/
structure Host.LeftBySwap (bs : BootStatus) (w : ω) (h : ImageHeader) : Prop where
  interrupted : bs.isReset = false
  primary : (host.bootReadImageHeader .primary (some bs) w).1 = (0, h)
  secondary : (host.bootReadImageHeader .secondary (some bs)
    (host.bootReadImageHeader .primary (some bs) w).2).1.1 ≠ 0

/-- The contents `c` of a slot have been validated under the header `h`. -/
structure Host.Validated (slot : Slot) (c : Memory UInt8) (h : ImageHeader) : Prop where
  checked : ∃ w, host.contents w slot = c ∧ (host.bootutilImgValidate h slot w).1 = FIH_SUCCESS
  valid : bootIsHeaderValid h (host.area slot) = true
  bootable : h.flags &&& IMAGE_F_NON_BOOTABLE = 0

variable {host}

/-- What `memset` leaves of a header is no image. -/
theorem Host.Validated.ne_zero {slot : Slot} {c : Memory UInt8} {h : ImageHeader}
    (validated : host.Validated slot c h) : h ≠ .zero := by
  rintro rfl
  have invalid : bootIsHeaderValid .zero (host.area slot) = false := rfl
  exact Bool.false_ne_true (invalid.symm.trans validated.valid)

theorem bootIsHeaderValid_magic {hdr : ImageHeader} {area : Area}
    (valid : bootIsHeaderValid hdr area = true) : hdr.magic = IMAGE_MAGIC := by
  by_contra other
  simp [bootIsHeaderValid, other] at valid

/-! ## The frames -/

variable (host) (s₀ s : State ω)

/-- Of its own memory the loader has changed the sectors at most. -/
structure Same : Prop where
  hdr : s.hdr = s₀.hdr
  swapType : s.swapType = s₀.swapType
  bs : s.bs = s₀.bs
  calls : s.calls = s₀.calls

/-- The slots have only been read. -/
structure SameSlots : Prop extends Same s₀ s where
  contents : host.contents s.world = host.contents s₀.world

/-- The primary slot has only been read. -/
structure SamePrimary : Prop extends Same s₀ s where
  contents : host.contents s.world .primary = host.contents s₀.world .primary

/-- What `boot_read_image_headers` makes of `s₀`: the header of a slot is read from where the slot
begins or left as it was, unless it is that of an interrupted swap.  If those are not both read,
that of the primary slot may be the one that the swap has left. -/
structure HeadersRead (bs : Option BootStatus) (rc : Int) : Prop where
  contents : host.contents s.world = host.contents s₀.world
  swapType : s.swapType = s₀.swapType
  status : s.bs = s₀.bs
  calls : s.calls = s₀.calls
  primary : host.Settled bs → s.hdr .primary = .read (host.contents s.world .primary) ∨
    rc ≠ 0 ∧ s.hdr .primary = s₀.hdr .primary
  secondary : host.Settled bs → s.hdr .secondary = .read (host.contents s.world .secondary) ∨
    s.hdr .secondary = s₀.hdr .secondary
  left : ∀ b, bs = some b → b.isReset = false → rc = 0 ∨ s.hdr .primary = s₀.hdr .primary ∨
    host.LeftBySwap b s₀.world (s.hdr .primary)

/-- What `boot_validate_slot` makes of `s₀`. -/
structure SlotValidated (slot : Slot) (fihRc : FihInt) : Prop extends SamePrimary host s₀ s where
  success : fihRc = FIH_SUCCESS → host.contents s.world = host.contents s₀.world ∧
    host.Validated slot (host.contents s.world slot) (s.hdr slot)

end

/-! ## The functions -/

section

variable {ω : Type} {host : Host ω} (lawful : host.Lawful) (s₀ : State ω)

include lawful

theorem bootReadSectors_spec :
    ⦃fun s => ⌜s = s₀⌝⦄ bootReadSectors host ⦃⇓? _ => fun s => ⌜SameSlots host s₀ s⌝⦄ := by
  mvcgen [bootReadSectors, bootInitializeArea]
  -- nothing in the boot is arithmetic on a ring, and without these solvers it is checked faster
  all_goals grind -ring -linarith [SameSlots, Same, Host.Lawful, Host.Reads]

theorem bootReadImageHeaders_spec (requireAll : Bool) (bs : Option BootStatus) :
    ⦃fun s => ⌜s = s₀⌝⦄ bootReadImageHeaders host requireAll bs
    ⦃⇓? rc => fun s => ⌜HeadersRead host s₀ s bs rc⌝⦄ := by
  mvcgen [bootReadImageHeaders, bootReadImageHeadersFrom]
  all_goals constructor
  all_goals grind -ring -linarith [Host.Lawful, Host.Reads, Host.LeftBySwap]

theorem bootReadImageSize_spec (slot : Slot) :
    ⦃fun s => ⌜s = s₀⌝⦄ bootReadImageSize host slot ⦃⇓? _ => fun s => ⌜SameSlots host s₀ s⌝⦄ := by
  mvcgen [bootReadImageSize]
  all_goals grind -ring -linarith [SameSlots, Same, Host.Lawful, Host.Reads]

theorem imageSizeOf_spec (slot : Slot) :
    ⦃fun s => ⌜s = s₀⌝⦄ imageSizeOf host slot ⦃⇓? _ => fun s => ⌜SameSlots host s₀ s⌝⦄ := by
  have size := bootReadImageSize_spec lawful
  mvcgen [imageSizeOf, assertZero, size]
  all_goals grind -ring -linarith [SameSlots, Same]

theorem bootCheckHeaderErased_spec (slot : Slot) :
    ⦃fun s => ⌜s = s₀⌝⦄ bootCheckHeaderErased host slot
    ⦃⇓? _ => fun s => ⌜SameSlots host s₀ s⌝⦄ := by
  mvcgen [bootCheckHeaderErased]
  all_goals grind -ring -linarith [SameSlots, Same, Host.Lawful, Host.Reads]

omit s₀ in
theorem Host.Lawful.validated {slot : Slot} {h : ImageHeader} {w : ω}
    (checked : (host.bootutilImgValidate h slot w).1 = FIH_SUCCESS)
    (valid : bootIsHeaderValid h (host.area slot) = true)
    (bootable : h.flags &&& IMAGE_F_NON_BOOTABLE = 0) :
    host.Validated slot (host.contents (host.bootutilImgValidate h slot w).2 slot) h :=
  ⟨⟨w, by rw [lawful.bootutilImgValidate], checked⟩, valid, bootable⟩

theorem bootValidateSlot_spec (slot : Slot) :
    ⦃fun s => ⌜s = s₀⌝⦄ bootValidateSlot host slot
    ⦃⇓? fihRc => fun s => ⌜SlotValidated host s₀ s slot fihRc⌝⦄ := by
  have erased := bootCheckHeaderErased_spec lawful
  cases slot
  all_goals
    mvcgen [bootValidateSlot, erased]
    all_goals grind -ring -linarith [SlotValidated, SamePrimary, SameSlots, Same,
      Host.Lawful.validated, Host.Lawful,
      Host.Reads, Host.Spares, fihIntEncode, FIH_SUCCESS, FIH_FAILURE]

theorem eraseLastSector_spec :
    ⦃fun s => ⌜s = s₀⌝⦄ eraseLastSector host ⦃⇓? _ => fun s => ⌜SamePrimary host s₀ s⌝⦄ := by
  mvcgen [eraseLastSector]
  all_goals grind -ring -linarith [SamePrimary, Same, Host.Lawful, Host.Spares]

end

/-! ## A board -/

/-- A header of 32 bytes and an image of 16 whose reset vector ends in `last`. -/
def imageOf (last : UInt8) : Memory UInt8 := fun i =>
  ([0x3d, 0xb8, 0xf3, 0x96, 0, 0, 0, 0, 32, 0, 0, 0, 16, 0, 0, 0] ++ List.replicate 20 0 ++
    [0x01, 0x82, 0x00, last]).getD i 0xff

/-- A host that finds every image valid and is asked to test the one in the secondary slot. -/
def board : Host (Slot → Memory UInt8) where
  area
    | .primary => ⟨0, 0xc000, 0xf0000, 0xff, true⟩
    | .secondary => ⟨1, 0, 0xf0000, 0xff, false⟩
  contents w := w
  pmCpunetB0nAddress := 0x01000000
  flashAreaOpen _ w := (0, w)
  flashAreaGetSectors _ w := ((0, [⟨0, 0xf0000⟩]), w)
  flashAreaRead _ _ _ w := (0, w)
  flashAreaErase slot w := (0, fun q => if q = slot then fun _ => 0xff else w q)
  flashErase off size w := (0, fun
    | .primary => w .primary
    | .secondary => fun i =>
        if off.toNat ≤ i ∧ i < off.toNat + size.toNat then 0xff else w .secondary i)
  bootReadImageHeader slot _ w := ((0, .read (w slot)), w)
  bootutilImgValidate _ _ w := (FIH_SUCCESS, w)
  bootSlotsCompatible w := (true, w)
  bootSwapTypeMulti w := (.test, w)
  bootReadSwapSize w := ((0, 0), w)
  swapReadStatus bs w := ((0, bs), w)
  swapEraseTrailerSectors _ w := (0, w)
  swapRun bs _ w := (bs, fun
    | .primary => w .secondary
    | .secondary => w .primary)
  swapSetImageOk w := (0, w)
  swapSetCopyDone w := (0, w)
  pcdNetworkCoreUpdate _ _ w := (0, w)

theorem board_lawful : board.Lawful where
  flashAreaOpen _ _ := rfl
  flashAreaGetSectors _ _ := rfl
  flashAreaRead _ _ _ _ := rfl
  bootReadImageHeader _ _ _ := rfl
  bootutilImgValidate _ _ _ := rfl
  bootSlotsCompatible _ := rfl
  bootSwapTypeMulti _ := rfl
  swapReadStatus _ _ := rfl
  flashAreaErase _ := rfl
  flashErase _ _ _ := rfl
  swapEraseTrailerSectors _ := rfl
  pcdNetworkCoreUpdate _ _ _ := rfl
  headerRead _ _ _ := rfl

end NcsExp.Loader
