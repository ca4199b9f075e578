/-
# NcsExp.Loader.Model -- the bootloader that hands images over to the network core

`9loader.c`, the loader of MCUboot with the changes of this repository, for the application core
of the nRF5340: one image, swapped by moving, no bootstrap, and the primary slot validated before
it is started.

A boot is a program over `State` that ends unless an assertion fails.  What the loader calls and
does not define is the `Host`: functions of the world outside of the loader's own memory, of
which the contents of the two slots are visible.  `calls` lists what a boot has done to an image.
-/
import Mathlib
import NcsExp.Theory.Memory
import NcsExp.Theory.LittleEndian

namespace NcsExp.Loader

open NcsExp.Theory

set_option autoImplicit false

/-! ## Data -/

def IMAGE_MAGIC : UInt32 := 0x96f3b83d
def IMAGE_F_NON_BOOTABLE : UInt32 := 0x10
def IMAGE_TLV_INFO_MAGIC : Nat := 0x6907
def IMAGE_TLV_PROT_INFO_MAGIC : Nat := 0x6908

def BOOT_EFLASH : Int := 1
def BOOT_EBADIMAGE : Int := 3

def BOOT_STATUS_OP_MOVE : UInt8 := 1
def BOOT_STATUS_IDX_0 : UInt32 := 1
def BOOT_STATUS_STATE_0 : UInt8 := 1

/-- Where the processor reads the external flash. -/
def XIP_BASE : UInt32 := 0x10000000

/-- `fih_int`. -/
abbrev FihInt := Int

def FIH_SUCCESS : FihInt := 0
def FIH_FAILURE : FihInt := -1

/-- `fih_int_encode`. -/
def fihIntEncode (rc : Int) : FihInt := rc

inductive Slot
  | primary
  | secondary
  deriving DecidableEq

/-- `BOOT_SWAP_TYPE_NONE .. BOOT_SWAP_TYPE_PANIC`; `other` is no swap type. -/
inductive SwapType
  | none
  | test
  | perm
  | revert
  | fail
  | panic
  | other
  deriving DecidableEq

/-- `BOOT_IS_UPGRADE`. -/
def SwapType.isUpgrade : SwapType → Bool
  | .test | .revert | .perm => true
  | _ => false

/-- `struct image_header`. -/
structure ImageHeader where
  magic : UInt32
  hdrSize : UInt16
  protectTlvSize : UInt16
  imgSize : UInt32
  flags : UInt32
  deriving DecidableEq

/-- The number in the `n` bytes at `off`. -/
def word (contents : Memory UInt8) (off n : Nat) : Nat := LittleEndian.value (contents.load off n)

/-- The header at the beginning of a slot. -/
def ImageHeader.read (contents : Memory UInt8) : ImageHeader where
  magic := .ofNat (word contents 0 4)
  hdrSize := .ofNat (word contents 8 2)
  protectTlvSize := .ofNat (word contents 10 2)
  imgSize := .ofNat (word contents 12 4)
  flags := .ofNat (word contents 16 4)

/-- `memset(state, 0, ..)`. -/
def ImageHeader.zero : ImageHeader := ⟨0, 0, 0, 0, 0⟩

/-- `struct flash_sector`. -/
structure Sector where
  off : UInt32
  size : UInt32

/-- `struct boot_status`. -/
structure BootStatus where
  op : UInt8
  idx : UInt32
  state : UInt8
  swapType : SwapType
  swapSize : UInt32
  deriving DecidableEq

/-- `struct flash_area`. -/
structure Area where
  deviceId : UInt8
  off : UInt32
  size : UInt32
  erasedVal : UInt8
  /-- `fa_dev_name` is that of the internal flash. -/
  internal : Bool

/-- What the loader calls. -/
structure Host (ω : Type) where
  area : Slot → Area
  contents : ω → Slot → Memory UInt8
  pmCpunetB0nAddress : UInt32
  flashAreaOpen : Slot → ω → Int × ω
  flashAreaGetSectors : Slot → ω → (Int × List Sector) × ω
  /-- Without the bytes, which are those of the slot. -/
  flashAreaRead : Slot → UInt32 → Nat → ω → Int × ω
  /-- The slot from its beginning to its end. -/
  flashAreaErase : Slot → ω → Int × ω
  flashErase : UInt32 → UInt32 → ω → Int × ω
  /-- A read that fails leaves no header behind. -/
  bootReadImageHeader : Slot → Option BootStatus → ω → (Int × ImageHeader) × ω
  bootutilImgValidate : ImageHeader → Slot → ω → FihInt × ω
  bootSlotsCompatible : ω → Bool × ω
  bootSwapTypeMulti : ω → SwapType × ω
  bootReadSwapSize : ω → (Int × UInt32) × ω
  swapReadStatus : BootStatus → ω → (Int × BootStatus) × ω
  swapEraseTrailerSectors : Slot → ω → Int × ω
  swapRun : BootStatus → UInt32 → ω → BootStatus × ω
  swapSetImageOk : ω → Int × ω
  swapSetCopyDone : ω → Int × ω
  pcdNetworkCoreUpdate : UInt32 → UInt32 → ω → Int × ω

/-- What a boot does with the image of the secondary slot, and what the slot contains then. -/
inductive Call
  | swapRun (copySize : UInt32) (image : Memory UInt8)
  | pcdNetworkCoreUpdate (vtable fwSize : UInt32) (image : Memory UInt8) (done : Bool)

/-- `struct boot_loader_state` and the status `bs` of `context_boot_go`. -/
structure State (ω : Type) where
  world : ω
  hdr : Slot → ImageHeader
  sectors : Slot → List Sector
  swapType : SwapType
  bs : BootStatus
  calls : List Call

abbrev Boot (ω : Type) := StateT (State ω) Option

section

variable {ω : Type} {α : Type}

/-- A call of the host. -/
def call (f : ω → α × ω) : Boot ω α := fun s =>
  some ((f s.world).1, { s with world := (f s.world).2 })

/-- A failed assertion, or the endless loop behind it. -/
def panic : Boot ω α := fun _ => none

/-- `assert(rc == 0)`. -/
def assertZero (rc : Int) : Boot ω Unit := if rc = 0 then pure () else panic

variable (host : Host ω)

/-! ## Reading the slots -/

/-- The loop of `boot_read_image_headers` over the slots from here on. -/
def bootReadImageHeadersFrom (requireAll : Bool) (bs : Option BootStatus) :
    List Slot → Boot ω Int
  | [] => pure 0
  | slot :: rest => do
      let (rc, hdr) ← call (host.bootReadImageHeader slot bs)
      if rc ≠ 0 then
        if slot = .secondary ∧ requireAll = false then return 0 else return rc
      modify fun s => { s with hdr := fun q => if q = slot then hdr else s.hdr q }
      bootReadImageHeadersFrom requireAll bs rest

/-- `boot_read_image_headers`, lines 83-117. -/
def bootReadImageHeaders (requireAll : Bool) (bs : Option BootStatus) : Boot ω Int :=
  bootReadImageHeadersFrom host requireAll bs [.primary, .secondary]

/-- `BOOT_TLV_OFF`. -/
def ImageHeader.tlvOff (hdr : ImageHeader) : UInt32 := hdr.hdrSize.toUInt32 + hdr.imgSize

/-- `boot_read_image_size`, lines 125-180: its result and `*size`. -/
def bootReadImageSize (slot : Slot) : Boot ω (Int × UInt32) := do
  let rc ← call (host.flashAreaOpen slot)
  if rc ≠ 0 then return (BOOT_EFLASH, 0)
  let hdr := (← get).hdr slot
  let off := hdr.tlvOff
  let rc ← call (host.flashAreaRead slot off 4)
  if rc ≠ 0 then return (BOOT_EFLASH, 0)
  let contents := host.contents (← get).world slot
  let mut magic := word contents off.toNat 2
  let mut tot := word contents (off.toNat + 2) 2
  if magic = IMAGE_TLV_PROT_INFO_MAGIC then
    if hdr.protectTlvSize.toNat ≠ tot then return (BOOT_EBADIMAGE, 0)
    let next := off + .ofNat tot
    let rc ← call (host.flashAreaRead slot next 4)
    if rc ≠ 0 then return (BOOT_EFLASH, 0)
    let contents := host.contents (← get).world slot
    magic := word contents next.toNat 2
    tot := word contents (next.toNat + 2) 2
  else if hdr.protectTlvSize ≠ 0 then return (BOOT_EBADIMAGE, 0)
  if magic ≠ IMAGE_TLV_INFO_MAGIC then return (BOOT_EBADIMAGE, 0)
  return (0, off + hdr.protectTlvSize.toUInt32 + .ofNat tot)

/-- `boot_initialize_area`, lines 238-269. -/
def bootInitializeArea (slot : Slot) : Boot ω Int := do
  let (rc, sectors) ← call (host.flashAreaGetSectors slot)
  if rc ≠ 0 then return rc
  modify fun s => { s with sectors := fun q => if q = slot then sectors else s.sectors q }
  return 0

/-- `boot_read_sectors`, lines 278-306. -/
def bootReadSectors : Boot ω Int := do
  let rc ← bootInitializeArea host .primary
  if rc ≠ 0 then return BOOT_EFLASH
  let rc ← bootInitializeArea host .secondary
  if rc ≠ 0 then return BOOT_EFLASH
  return 0

/-- `boot_status_reset`, lines 308-326. -/
def BootStatus.reset : BootStatus :=
  ⟨BOOT_STATUS_OP_MOVE, BOOT_STATUS_IDX_0, BOOT_STATUS_STATE_0, .none, 0⟩

/-- `boot_status_is_reset`, lines 328-334. -/
def BootStatus.isReset (bs : BootStatus) : Bool :=
  bs.op = BOOT_STATUS_OP_MOVE && bs.idx = BOOT_STATUS_IDX_0 && bs.state = BOOT_STATUS_STATE_0

/-! ## Validating a slot -/

/-- `boot_u32_safe_add`. -/
def bootU32SafeAdd (a b : UInt32) : Option UInt32 :=
  if a.toNat + b.toNat < 2 ^ 32 then some (a + b) else none

/-- `boot_is_header_valid`, lines 478-496. -/
def bootIsHeaderValid (hdr : ImageHeader) (area : Area) : Bool :=
  if hdr.magic ≠ IMAGE_MAGIC then false
  else
    match bootU32SafeAdd hdr.imgSize hdr.hdrSize.toUInt32 with
    | none => false
    | some size => if size ≥ area.size then false else true

/-- `boot_data_is_set_to`, lines 501-512. -/
def bootDataIsSetTo (val : UInt8) (data : List UInt8) : Bool := data.all (· == val)

/-- `boot_check_header_erased`, lines 514-538. -/
def bootCheckHeaderErased (slot : Slot) : Boot ω Int := do
  let rc ← call (host.flashAreaOpen slot)
  if rc ≠ 0 then return -1
  let hdr := (← get).hdr slot
  if bootDataIsSetTo (host.area slot).erasedVal (LittleEndian.bytes 4 hdr.magic.toNat) then return 0
  return -1

/-- `boot_validate_slot`, lines 592-671, with `boot_image_check`, lines 404-438. -/
def bootValidateSlot (slot : Slot) : Boot ω FihInt := do
  let rc ← call (host.flashAreaOpen slot)
  if rc ≠ 0 then return FIH_FAILURE
  let hdr := (← get).hdr slot
  let erased ← bootCheckHeaderErased host slot
  if erased = 0 ∨ hdr.flags &&& IMAGE_F_NON_BOOTABLE ≠ 0 then
    if slot ≠ .primary then
      let _ ← call (host.swapEraseTrailerSectors slot)
    return fihIntEncode 1
  let fihRc ← call (host.bootutilImgValidate hdr slot)
  if bootIsHeaderValid hdr (host.area slot) = false ∨ fihRc ≠ FIH_SUCCESS then
    if slot ≠ .primary then
      let _ ← call (host.flashAreaErase slot)
    return fihIntEncode 1
  return fihRc

/-! ## The type of the swap -/

/-- `hdr`: in internal flash the header is read where it is. -/
def secondaryHeader : Boot ω ImageHeader := do
  let s ← get
  if (host.area .secondary).internal then
    return .read (host.contents s.world .secondary)
  else
    return s.hdr .secondary

/-- What is behind `vtable[1]`. -/
def resetVector (contents : Memory UInt8) (hdr : ImageHeader) : UInt32 :=
  .ofNat (word contents (hdr.hdrSize.toNat + 4) 4)

/-- `vtable`. -/
def vtable (area : Area) (hdr : ImageHeader) : UInt32 :=
  if area.internal then area.off + hdr.hdrSize.toUInt32 else XIP_BASE + hdr.hdrSize.toUInt32

/-- The last sector of the secondary slot is erased, lines 862-879. -/
def eraseLastSector : Boot ω Unit := do
  let s ← get
  let area := host.area .secondary
  let sectors := s.sectors .secondary
  let first := (sectors.headD ⟨0, 0⟩).off
  let last := sectors.getLastD ⟨0, 0⟩
  let off := last.off - first
  if off ≤ area.size ∧ off + last.size ≤ area.size then
    let _ ← call (host.flashErase (area.off + off) last.size)

/-- `vtable` and `reset_addr`, lines 743-810, where the slot can be read. -/
def bootVtable : Boot ω (Option (UInt32 × UInt32)) := do
  let hdr ← secondaryHeader host
  if hdr.magic ≠ IMAGE_MAGIC then return some (0, 0)
  if (host.area .secondary).internal = false then
    let rc ← call (host.flashAreaRead .secondary (hdr.hdrSize.toUInt32 + 4) 4)
    if rc ≠ 0 then return none
  let contents := host.contents (← get).world .secondary
  return some (vtable (host.area .secondary) hdr, resetVector contents hdr)

/-- The update of the network core, lines 833-884, and the swap type behind it. -/
def bootNetworkUpdate (table : UInt32) : Boot ω SwapType := do
  let fwSize := (← secondaryHeader host).imgSize
  let image := host.contents (← get).world .secondary
  let rc ← call (host.pcdNetworkCoreUpdate table fwSize)
  modify fun s => { s with
    calls := s.calls ++ [.pcdNetworkCoreUpdate table fwSize image (rc == 0)] }
  if rc ≠ 0 then return .fail
  if (host.area .secondary).internal then
    let _ ← call (host.swapEraseTrailerSectors .secondary)
  else
    eraseLastSector host
  return .none

/-- `boot_validated_swap_type`, lines 727-889. -/
def bootValidatedSwapType : Boot ω SwapType := do
  match ← bootVtable host with
  | none => return .fail
  | some (table, resetAddr) =>
      let swapType ← call host.bootSwapTypeMulti
      if swapType.isUpgrade = false then return swapType
      let fihRc ← bootValidateSlot host .secondary
      if fihRc ≠ FIH_SUCCESS then
        return if fihRc = fihIntEncode 1 then .none else .fail
      if resetAddr > host.pmCpunetB0nAddress then
        bootNetworkUpdate host table
      else
        return swapType

/-! ## Swapping -/

/-- `copy_size` of a swap that has not begun. -/
def imageSizeOf (slot : Slot) : Boot ω UInt32 := do
  if ((← get).hdr slot).magic = IMAGE_MAGIC then
    let (rc, size) ← bootReadImageSize host slot
    assertZero rc
    return size
  else
    return 0

/-- `boot_swap_image`, lines 1190-1305. -/
def bootSwapImage : Boot ω Int := do
  if (← get).bs.isReset then
    let copySize ← imageSizeOf host .primary
    let size ← imageSizeOf host .secondary
    let copySize := if size > copySize then size else copySize
    modify fun s => { s with bs := { s.bs with swapSize := copySize } }
  else
    let (rc, swapSize) ← call host.bootReadSwapSize
    modify fun s => { s with bs := { s.bs with swapSize := swapSize } }
    assertZero rc
  let s ← get
  modify fun s => { s with
    calls := s.calls ++ [.swapRun s.bs.swapSize (host.contents s.world .secondary)] }
  let bs ← call (host.swapRun s.bs s.bs.swapSize)
  modify fun s => { s with bs := bs }
  return 0

/-- `boot_perform_update`, lines 1475-1549. -/
def bootPerformUpdate : Boot ω Int := do
  let rc ← bootSwapImage host
  assertZero rc
  let mut rc := rc
  let mut swapType := (← get).swapType
  if swapType = .revert ∨ swapType = .perm then
    rc ← call host.swapSetImageOk
    if rc ≠ 0 then
      swapType := .panic
      modify fun s => { s with swapType := .panic }
  if swapType.isUpgrade then
    rc ← call host.swapSetCopyDone
    if rc ≠ 0 then
      modify fun s => { s with swapType := .panic }
  return rc

/-- `boot_complete_partial_swap`, lines 1559-1600. -/
def bootCompletePartialSwap : Boot ω Int := do
  let rc ← bootSwapImage host
  assertZero rc
  let mut rc := rc
  let swapType := (← get).bs.swapType
  modify fun s => { s with swapType := swapType }
  if swapType = .revert ∨ swapType = .perm then
    rc ← call host.swapSetImageOk
    if rc ≠ 0 then
      modify fun s => { s with swapType := .panic }
  if swapType.isUpgrade then
    rc ← call host.swapSetCopyDone
    if rc ≠ 0 then
      modify fun s => { s with swapType := .panic }
  if (← get).swapType = .panic then
    panic
  return rc

/-! ## A boot -/

/-- `BOOT_SWAP_TYPE(state) = swap_type`. -/
def setSwapType (swapType : SwapType) : Boot ω Unit :=
  modify fun s => { s with swapType := swapType }

/-- The swap type where no swap was interrupted, lines 1769-1780. -/
def freshSwapType : Boot ω SwapType := do
  let bs := (← get).bs
  if bs.swapType = .none then
    bootValidatedSwapType host
  else
    let fihRc ← bootValidateSlot host .secondary
    return if fihRc ≠ FIH_SUCCESS then .fail else bs.swapType

/-- `boot_prepare_image_for_update`, lines 1671-1820. -/
def bootPrepareImageForUpdate : Boot ω Unit := do
  let rc ← bootReadSectors host
  if rc ≠ 0 then return ← setSwapType .none
  let rc ← bootReadImageHeaders host false none
  if rc ≠ 0 then return ← setSwapType .none
  let compatible ← call host.bootSlotsCompatible
  if compatible = false then return ← setSwapType .none
  let (rc, bs) ← call (host.swapReadStatus .reset)
  modify fun s => { s with bs := bs }
  if rc ≠ 0 then return ← setSwapType .none
  let rc ← bootReadImageHeaders host (!bs.isReset) (some bs)
  if rc ≠ 0 then return ← setSwapType .none
  if bs.isReset = false then
    let rc ← bootCompletePartialSwap host
    assertZero rc
    let rc ← bootReadImageHeaders host false (some (← get).bs)
    assertZero rc
    setSwapType .none
  else
    setSwapType (← freshSwapType host)

/-- `struct boot_rsp`. -/
structure BootRsp where
  flashDevId : UInt8
  imageOff : UInt32
  hdr : ImageHeader

/-- The update that the swap type asks for, lines 1934-1974. -/
def bootUpdate : Boot ω Unit := do
  let swapType := (← get).swapType
  modify fun s => { s with bs := { s.bs with swapType := swapType } }
  match swapType with
  | .none => pure ()
  | .test | .perm | .revert =>
      let rc ← bootPerformUpdate host
      assertZero rc
  | .fail =>
      let rc ← call host.swapSetImageOk
      if rc ≠ 0 then setSwapType .panic
  | .panic | .other => setSwapType .panic
  if (← get).swapType = .panic then
    panic

/-- `context_boot_go`, lines 1822-2104: its result, and `*rsp` where that is `FIH_SUCCESS`. -/
def contextBootGo : Boot ω (FihInt × Option BootRsp) := do
  modify fun s => { s with hdr := fun _ => .zero, sectors := fun _ => [], swapType := .other }
  assertZero (← call (host.flashAreaOpen .primary))
  assertZero (← call (host.flashAreaOpen .secondary))
  bootPrepareImageForUpdate host
  bootUpdate host
  if (← get).swapType ≠ .none then
    let rc ← bootReadImageHeaders host false (some (← get).bs)
    if rc ≠ 0 then return (fihIntEncode rc, none)
  let fihRc ← bootValidateSlot host .primary
  if fihRc ≠ FIH_SUCCESS then return (fihRc, none)
  let area := host.area .primary
  return (FIH_SUCCESS, some ⟨area.deviceId, area.off, (← get).hdr .primary⟩)

end

end NcsExp.Loader
