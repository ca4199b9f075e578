/-
# NcsExp.Loader.NetworkCore -- which image goes where

The images of both cores come into the same secondary slot.  A boot does one thing with an image
at most: it swaps it into the primary slot, or hands it over to the network core.  Either way the
image has been validated, and the reset vector says which (`goes_where_it_belongs`).
-/
import NcsExp.Loader.Contracts
import NcsExp.Pcd.Model

namespace NcsExp.Loader

open NcsExp.Theory Std.Do

set_option autoImplicit false
set_option mvcgen.warning false

section

variable {ω : Type} (host : Host ω)

/-- The loader has the header of the secondary slot, or none. -/
def KnownSecondary (s : State ω) : Prop :=
  s.hdr .secondary = .read (host.contents s.world .secondary) ∨ s.hdr .secondary = .zero

/-- A valid image in the secondary slot that is for the application core. -/
structure Host.ForApplication (image : Memory UInt8) : Prop where
  validated : host.Validated .secondary image (.read image)
  below : resetVector image (.read image) ≤ host.pmCpunetB0nAddress

/-- A valid image in the secondary slot that is for the network core, and what is handed over. -/
structure Host.ForNetwork (image : Memory UInt8) (table fwSize : UInt32) : Prop where
  validated : host.Validated .secondary image (.read image)
  above : host.pmCpunetB0nAddress < resetVector image (.read image)
  table : table = vtable (host.area .secondary) (.read image)
  fwSize : fwSize = (ImageHeader.read image).imgSize

/-- No swap was interrupted where the slots contain `c`. -/
def Host.Uninterrupted (c : Slot → Memory UInt8) : Prop :=
  ∀ w, host.contents w = c → (host.swapReadStatus .reset w).1.2.isReset = true ∧
    (host.swapReadStatus .reset w).1.2.swapType = .none

/-- What a boot may do with images, if the slots contain `c` at first. -/
def Host.Proper (c : Slot → Memory UInt8) : List Call → Prop
  | [] => True
  | [.swapRun _ image] => host.Uninterrupted c → host.ForApplication image
  | [.pcdNetworkCoreUpdate table fwSize image _] => host.ForNetwork image table fwSize
  | _ => False

/-- An image has been handed over to the network core and copied there. -/
def handedOver : List Call → Bool
  | [.pcdNetworkCoreUpdate _ _ _ done] => done
  | _ => false

/-- What `boot_validated_swap_type` makes of `s₀`, if no swap was interrupted. -/
structure SwapTyped (s₀ s : State ω) (swapType : SwapType) : Prop where
  hdr : s.hdr = s₀.hdr
  primary : host.contents s.world .primary = host.contents s₀.world .primary
  status : s.bs = s₀.bs
  calls : (s.calls = s₀.calls ∧ (swapType.isUpgrade = true → s₀.bs.swapType = .none →
      host.ForApplication (host.contents s.world .secondary))) ∨
    ∃ table fwSize image,
      s.calls = s₀.calls ++ [.pcdNetworkCoreUpdate table fwSize image (swapType = .none)] ∧
        host.ForNetwork image table fwSize ∧ (swapType = .none ∨ swapType = .fail)

end

section

variable {ω : Type} {host : Host ω} (lawful : host.Lawful) (s₀ : State ω)

include lawful

theorem bootVtable_spec :
    ⦃fun s => ⌜s = s₀⌝⦄ bootVtable host
    ⦃⇓? found => fun s => ⌜SameSlots host s₀ s ∧
      (s.hdr .secondary = .read (host.contents s.world .secondary) →
        (s.hdr .secondary).magic = IMAGE_MAGIC →
        ∀ table resetAddr, found = some (table, resetAddr) →
          table = vtable (host.area .secondary) (s.hdr .secondary) ∧
            resetAddr = resetVector (host.contents s.world .secondary) (s.hdr .secondary))⌝⦄ := by
  mvcgen [bootVtable, secondaryHeader]
  all_goals grind -ring -linarith [SameSlots, Same, Host.Lawful, Host.Reads]

theorem bootNetworkUpdate_spec (table : UInt32) :
    ⦃fun s => ⌜s = s₀⌝⦄ bootNetworkUpdate host table
    ⦃⇓? swapType => fun s => ⌜s.hdr = s₀.hdr ∧
      host.contents s.world .primary = host.contents s₀.world .primary ∧ s.bs = s₀.bs ∧
      (s₀.hdr .secondary = .read (host.contents s₀.world .secondary) →
        s.calls = s₀.calls ++ [.pcdNetworkCoreUpdate table (s₀.hdr .secondary).imgSize
            (host.contents s₀.world .secondary) (swapType = .none)] ∧
          (swapType = .none ∨ swapType = .fail))⌝⦄ := by
  have erase := eraseLastSector_spec lawful
  mvcgen [bootNetworkUpdate, secondaryHeader, erase]
  all_goals grind -ring -linarith [SamePrimary, Same, Host.Lawful, Host.Reads, Host.Spares]

omit lawful in
/-- An image that is valid under a known header has this header. -/
theorem SlotValidated.image {s₁ s : State ω} {fihRc : FihInt} (known : KnownSecondary host s₁)
    (validated : SlotValidated host s₁ s .secondary fihRc) (success : fihRc = FIH_SUCCESS) :
    s.hdr .secondary = .read (host.contents s.world .secondary) ∧
      host.Validated .secondary (host.contents s.world .secondary) (s.hdr .secondary) := by
  obtain ⟨same, valid⟩ := validated.success success
  refine ⟨?_, valid⟩
  rcases known with read | zero
  · rw [validated.hdr, same, read]
  · exact absurd (by rw [validated.hdr, zero]) valid.ne_zero

theorem bootValidatedSwapType_spec :
    ⦃fun s => ⌜s = s₀ ∧ KnownSecondary host s₀⌝⦄ bootValidatedSwapType host
    ⦃⇓? swapType => fun s => ⌜SwapTyped host s₀ s swapType⌝⦄ := by
  have find := bootVtable_spec lawful
  have validate := bootValidateSlot_spec lawful
  have update := bootNetworkUpdate_spec lawful
  have asked := lawful.bootSwapTypeMulti
  mvcgen [bootValidatedSwapType, find, validate, update]
  · grind -ring -linarith [SwapTyped, SameSlots, Same, SwapType.isUpgrade]
  · grind -ring -linarith [SwapTyped, SameSlots, Same, Host.Reads]
  · grind -ring -linarith [SwapTyped, SameSlots, SlotValidated, SamePrimary, Same,
      SwapType.isUpgrade, Host.Reads]
  · -- the network core is updated
    rename_i s₁ begins found table resetAddr foundEq s₂ find upgrade fihRc success above s₃
      validated swapType s₄
    intro hdr primary status update
    obtain ⟨rfl, known⟩ := begins
    have still : KnownSecondary host
        { s₂ with world := (host.bootSwapTypeMulti s₂.world).2 } := by
      grind -ring -linarith [KnownSecondary, SameSlots, Same, Host.Reads]
    obtain ⟨read, valid⟩ := validated.image still (not_not.mp success)
    obtain ⟨calls, ends⟩ := update read
    have before : s₃.calls = s₁.calls := by
      grind -ring -linarith [SameSlots, SlotValidated, SamePrimary, Same]
    refine ⟨?_, ?_, ?_, .inr ⟨_, _, _, calls.trans (by rw [before]),
      ⟨read ▸ valid, ?_, ?_, by rw [read]⟩, ends⟩⟩
    · grind -ring -linarith [SameSlots, SlotValidated, SamePrimary, Same]
    · grind -ring -linarith [SameSlots, SlotValidated, SamePrimary, Host.Reads]
    · grind -ring -linarith [SameSlots, SlotValidated, SamePrimary, Same]
    all_goals
      have magic := bootIsHeaderValid_magic valid.valid
      grind -ring -linarith [SameSlots, SlotValidated, SamePrimary, Same, Host.Reads]
  · -- the image is to be swapped in
    rename_i s₁ begins found table resetAddr foundEq s₂ find upgrade fihRc success below s₃
      validated
    obtain ⟨rfl, known⟩ := begins
    have still : KnownSecondary host
        { s₂ with world := (host.bootSwapTypeMulti s₂.world).2 } := by
      grind -ring -linarith [KnownSecondary, SameSlots, Same, Host.Reads]
    obtain ⟨read, valid⟩ := validated.image still (not_not.mp success)
    refine ⟨?_, ?_, ?_, .inl ⟨?_, fun _ _ => ⟨read ▸ valid, ?_⟩⟩⟩
    · grind -ring -linarith [SameSlots, SlotValidated, SamePrimary, Same]
    · grind -ring -linarith [SameSlots, SlotValidated, SamePrimary, Host.Reads]
    · grind -ring -linarith [SameSlots, SlotValidated, SamePrimary, Same]
    · grind -ring -linarith [SameSlots, SlotValidated, SamePrimary, Same]
    · have magic := bootIsHeaderValid_magic valid.valid
      grind -ring -linarith [SameSlots, SlotValidated, SamePrimary, Same, Host.Reads]

theorem freshSwapType_spec :
    ⦃fun s => ⌜s = s₀ ∧ KnownSecondary host s₀⌝⦄ freshSwapType host
    ⦃⇓? swapType => fun s => ⌜SwapTyped host s₀ s swapType⌝⦄ := by
  have validate := bootValidateSlot_spec lawful
  have swapType := bootValidatedSwapType_spec lawful
  mvcgen [freshSwapType, validate, swapType]
  all_goals grind -ring -linarith [SwapTyped, SlotValidated, SamePrimary, Same]

end

/-! ## A boot -/

section

variable {ω : Type} (host : Host ω) (c : Slot → Memory UInt8)

/-- The image in the secondary slot may be swapped in. -/
structure Swappable (s : State ω) : Prop where
  calls : s.calls = []
  image : host.Uninterrupted c →
    s.bs.isReset = true ∧ host.ForApplication (host.contents s.world .secondary)

/-- An image has been swapped in. -/
structure Swapped (s : State ω) : Prop where
  proper : host.Proper c s.calls
  kept : handedOver s.calls = false

/-- What is known before the update that the swap type asks for. -/
structure Decided (s : State ω) : Prop where
  upgrade : s.swapType.isUpgrade = true → Swappable host c s
  proper : s.swapType.isUpgrade = false → host.Proper c s.calls
  primary : handedOver s.calls = true →
    s.swapType = .none ∧ host.contents s.world .primary = c .primary

/-- What a boot has done. -/
structure Done (s : State ω) : Prop where
  proper : host.Proper c s.calls
  primary : handedOver s.calls = true → host.contents s.world .primary = c .primary

end

section

variable {ω : Type} {host : Host ω} (lawful : host.Lawful) (c : Slot → Memory UInt8)

include lawful

theorem Host.Lawful.statusRead {w : ω} (same : host.contents w = c)
    (uninterrupted : host.Uninterrupted c) :
    (host.swapReadStatus .reset (host.bootSlotsCompatible w).2).1.2.isReset = true ∧
      (host.swapReadStatus .reset (host.bootSlotsCompatible w).2).1.2.swapType = .none :=
  uninterrupted _ (by rw [lawful.bootSlotsCompatible, same])

theorem bootSwapImage_swapped :
    ⦃fun s => ⌜Swappable host c s⌝⦄ bootSwapImage host ⦃⇓? _ => fun s => ⌜Swapped host c s⌝⦄ := by
  have size := imageSizeOf_spec lawful
  mvcgen [bootSwapImage, assertZero, size]
  all_goals grind -ring -linarith [Swapped, Swappable, SameSlots, Same, Host.Proper, handedOver]

theorem bootPerformUpdate_swapped :
    ⦃fun s => ⌜Swappable host c s⌝⦄ bootPerformUpdate host
    ⦃⇓? _ => fun s => ⌜Swapped host c s⌝⦄ := by
  have swap := bootSwapImage_swapped lawful c
  mvcgen [bootPerformUpdate, assertZero, swap]
  all_goals grind -ring -linarith [Swapped]

theorem bootCompletePartialSwap_swapped :
    ⦃fun s => ⌜Swappable host c s⌝⦄ bootCompletePartialSwap host
    ⦃⇓? _ => fun s => ⌜Swapped host c s⌝⦄ := by
  have swap := bootSwapImage_swapped lawful c
  mvcgen [bootCompletePartialSwap, assertZero, swap]
  all_goals grind -ring -linarith [Swapped]

omit lawful in
theorem SwapTyped.decided {s₁ s : State ω} {swapType : SwapType}
    (typed : SwapTyped host s₁ s swapType) (calls : s₁.calls = [])
    (primary : host.contents s₁.world .primary = c .primary) (status : s₁.bs.isReset = true)
    (fresh : host.Uninterrupted c → s₁.bs.swapType = .none) :
    Decided host c { s with swapType := swapType } := by
  obtain ⟨same, upgrade⟩ | ⟨table, fwSize, image, handed, network, ends⟩ := typed.calls
  · have nothing : s.calls = [] := same.trans calls
    refine ⟨fun is => ⟨nothing, fun uninterrupted => ?_⟩, fun _ => ?_, fun done => ?_⟩
    · exact ⟨by rw [typed.status, status], upgrade is (fresh uninterrupted)⟩
    · simp [nothing, Host.Proper]
    · simp [nothing, handedOver] at done
  · rw [calls, List.nil_append] at handed
    refine ⟨fun is => ?_, fun _ => ?_, fun done => ?_⟩
    · rcases ends with rfl | rfl <;> simp [SwapType.isUpgrade] at is
    · simpa [handed, Host.Proper] using network
    · have copied : swapType = .none := by simpa [handed, handedOver] using done
      exact ⟨copied, typed.primary.trans primary⟩

theorem bootPrepareImageForUpdate_decided :
    ⦃fun s => ⌜s.calls = [] ∧ s.hdr .secondary = .zero ∧ host.contents s.world = c⌝⦄
    bootPrepareImageForUpdate host ⦃⇓? _ => fun s => ⌜Decided host c s⌝⦄ := by
  have sectors := bootReadSectors_spec lawful
  have headers := bootReadImageHeaders_spec lawful
  have complete := bootCompletePartialSwap_swapped lawful c
  have fresh := freshSwapType_spec lawful
  mvcgen [bootPrepareImageForUpdate, setSwapType, assertZero, sectors, headers, complete, fresh]
  · grind -ring -linarith [Decided, SameSlots, Same, Host.Proper, handedOver, SwapType.isUpgrade]
  · grind -ring -linarith [Decided, HeadersRead, SameSlots, Same, Host.Proper, handedOver,
      SwapType.isUpgrade]
  · grind -ring -linarith [Decided, HeadersRead, SameSlots, Same, Host.Proper, handedOver,
      SwapType.isUpgrade]
  · grind -ring -linarith [Decided, HeadersRead, SameSlots, Same, Host.Proper, handedOver,
      SwapType.isUpgrade]
  · grind -ring -linarith [Decided, HeadersRead, SameSlots, Same, Host.Proper, handedOver,
      SwapType.isUpgrade]
  · -- the swap is resumed
    grind -ring -linarith [Swappable, HeadersRead, SameSlots, Same, Host.Lawful.statusRead]
  · grind -ring -linarith [Decided, Swapped, HeadersRead, SwapType.isUpgrade]
  · -- no swap was interrupted
    grind -ring -linarith [KnownSecondary, HeadersRead, SameSlots, Same, Host.Lawful, Host.Reads,
      Host.Settled]
  · rename_i typed _
    refine SwapTyped.decided c typed ?_ ?_ ?_ ?_
    · grind -ring -linarith [HeadersRead, SameSlots, Same]
    · grind -ring -linarith [HeadersRead, SameSlots, Host.Lawful, Host.Reads]
    · grind -ring -linarith [HeadersRead]
    · grind -ring -linarith [HeadersRead, SameSlots, Host.Lawful.statusRead]

theorem bootUpdate_done :
    ⦃fun s => ⌜Decided host c s⌝⦄ bootUpdate host ⦃⇓? _ => fun s => ⌜Done host c s⌝⦄ := by
  have perform := bootPerformUpdate_swapped lawful c
  mvcgen [bootUpdate, setSwapType, assertZero, perform]
  all_goals grind -ring -linarith [Decided, Swappable, Swapped, Done, SwapType.isUpgrade,
    BootStatus.isReset]

theorem contextBootGo_done :
    ⦃fun s => ⌜s.calls = [] ∧ host.contents s.world = c⌝⦄ contextBootGo host
    ⦃⇓? _ => fun s => ⌜Done host c s⌝⦄ := by
  have prepare := bootPrepareImageForUpdate_decided lawful c
  have update := bootUpdate_done lawful c
  have headers := bootReadImageHeaders_spec lawful
  have validate := bootValidateSlot_spec lawful
  mvcgen [contextBootGo, assertZero, prepare, update, headers, validate]
  all_goals grind -ring -linarith [Done, HeadersRead, SlotValidated, SamePrimary, Same,
    Host.Lawful, Host.Reads]

theorem contextBootGo_ends {s t : State ω} {r : FihInt × Option BootRsp} (begins : s.calls = [])
    (ended : contextBootGo host s = some (r, t)) : Done host (host.contents s.world) t :=
  of_triple (contextBootGo_done lawful _) ⟨begins, rfl⟩ ended

/-- **Every image goes where it belongs.**  A boot does at most one thing with an image of the
secondary slot.  An image that it hands over to the network core is valid and its reset vector is
that of the network core; once it has been handed over the primary slot stays as it was.  An
image that it swaps into the primary slot is valid and its reset vector is that of the
application core, unless an earlier boot had begun the swap. -/
theorem goes_where_it_belongs {s t : State ω} {r : FihInt × Option BootRsp} (begins : s.calls = [])
    (ended : contextBootGo host s = some (r, t)) :
    host.Proper (host.contents s.world) t.calls ∧ (handedOver t.calls = true →
      host.contents t.world .primary = host.contents s.world .primary) := by
  have done := contextBootGo_ends lawful begins ended
  exact ⟨done.proper, done.primary⟩

end

/-- An image of the network core has been uploaded. -/
def uploaded : State (Slot → Memory UInt8) where
  world
    | .primary => imageOf 0x00
    | .secondary => imageOf 0x01
  hdr _ := .zero
  sectors _ := []
  swapType := .none
  bs := .reset
  calls := []

theorem uploaded_handedOver :
    ∃ r t, contextBootGo board uploaded = some (r, t) ∧ r.1 = FIH_SUCCESS ∧
      handedOver t.calls = true := by
  have runs : (contextBootGo board uploaded).map (fun r => (r.1.1, handedOver r.2.calls)) =
      some (FIH_SUCCESS, true) := by
    decide +kernel
  obtain ⟨⟨r, t⟩, ended, same⟩ := Option.map_eq_some_iff.mp runs
  exact ⟨r, t, ended, congrArg Prod.fst same, congrArg Prod.snd same⟩

theorem goes_where_it_belongs_uploaded :
    ∃ r t, contextBootGo board uploaded = some (r, t) ∧ handedOver t.calls = true ∧
      board.Proper (board.contents uploaded.world) t.calls ∧
        (handedOver t.calls = true →
          board.contents t.world .primary = board.contents uploaded.world .primary) := by
  obtain ⟨r, t, ended, -, handed⟩ := uploaded_handedOver
  exact ⟨r, t, ended, handed, goes_where_it_belongs board_lawful rfl ended⟩

/-! ## What the network core finds -/

section

variable {ω : Type} (host : Host ω)

/-- Where both cores read a byte of the secondary slot. -/
def Host.address (i : Nat) : Nat :=
  (if (host.area .secondary).internal then 0 else XIP_BASE.toNat) +
    (host.area .secondary).off.toNat + i

/-- An update with what has been handed over, where the cores read the image in the slot. -/
structure Host.Updates (u : Pcd.Update) (table fwSize : UInt32) (image : Memory UInt8) : Prop where
  srcAddr : u.srcAddr = table.toNat
  len : u.len = fwSize.toNat
  within : host.address (host.area .secondary).size.toNat ≤ 2 ^ 32
  mapped : ∀ i < (host.area .secondary).size.toNat, u.rom (host.address i) = image i

variable {host}

/-- A valid image ends before its slot does. -/
theorem bootIsHeaderValid_fits {hdr : ImageHeader} {area : Area}
    (valid : bootIsHeaderValid hdr area = true) :
    hdr.hdrSize.toNat + hdr.imgSize.toNat < area.size.toNat := by
  have magic := bootIsHeaderValid_magic valid
  simp only [bootIsHeaderValid, magic, ne_eq, not_true_eq_false, if_false, bootU32SafeAdd] at valid
  by_cases fits : hdr.imgSize.toNat + hdr.hdrSize.toUInt32.toNat < 2 ^ 32
  · rw [if_pos fits] at valid
    have less : hdr.imgSize + hdr.hdrSize.toUInt32 < area.size := by simpa using valid
    have bound := UInt32.lt_iff_toNat_lt.mp less
    rw [UInt32.toNat_add, Nat.mod_eq_of_lt fits, UInt16.toNat_toUInt32] at bound
    omega
  · rw [if_neg fits] at valid
    exact absurd valid Bool.false_ne_true

/-- The image that is handed over begins behind its header. -/
theorem vtable_address {hdr : ImageHeader}
    (valid : bootIsHeaderValid hdr (host.area .secondary) = true)
    (within : host.address (host.area .secondary).size.toNat ≤ 2 ^ 32)
    (placed : (host.area .secondary).internal = true ∨ (host.area .secondary).off = 0) :
    (vtable (host.area .secondary) hdr).toNat = host.address hdr.hdrSize.toNat := by
  have fits := bootIsHeaderValid_fits valid
  unfold vtable Host.address at *
  by_cases internal : (host.area .secondary).internal = true
  · simp only [internal, if_true, UInt32.toNat_add, UInt16.toNat_toUInt32] at within ⊢
    omega
  · have first : (host.area .secondary).off = 0 := placed.resolve_left internal
    have small := hdr.hdrSize.toNat_lt
    simp [internal, first, XIP_BASE] at within ⊢
    omega

/-- What is handed over ends before the slot does. -/
theorem Host.ForNetwork.fits {image : Memory UInt8} {table fwSize : UInt32}
    (network : host.ForNetwork image table fwSize)
    (within : host.address (host.area .secondary).size.toNat ≤ 2 ^ 32)
    (placed : (host.area .secondary).internal = true ∨ (host.area .secondary).off = 0) :
    table.toNat + fwSize.toNat ≤ 2 ^ 32 := by
  have fits := bootIsHeaderValid_fits network.validated.valid
  have start := vtable_address network.validated.valid within placed
  rw [network.table, network.fwSize, start]
  unfold Host.address at within ⊢
  omega

/-- **The network core is handed the payload of a valid image.**  Whatever a boot hands over to
the network core, if the secondary slot is in internal flash or at the beginning of the external
one, the bytes that the network core will copy are those behind the header of the validated
image, all of them and no others. -/
theorem hands_over_payload (lawful : host.Lawful)
    (placed : (host.area .secondary).internal = true ∨ (host.area .secondary).off = 0)
    {s t : State ω} {r : FihInt × Option BootRsp} (begins : s.calls = [])
    (ended : contextBootGo host s = some (r, t)) {table fwSize : UInt32} {image : Memory UInt8}
    {done : Bool} (handed : t.calls = [.pcdNetworkCoreUpdate table fwSize image done])
    {u : Pcd.Update} (updates : host.Updates u table fwSize image) :
    u.image = image.load (ImageHeader.read image).hdrSize.toNat
        (ImageHeader.read image).imgSize.toNat ∧
      host.Validated .secondary image (.read image) := by
  have finished := contextBootGo_ends lawful begins ended
  have network : host.ForNetwork image table fwSize := by
    simpa [handed, Host.Proper] using finished.proper
  have fits := bootIsHeaderValid_fits network.validated.valid
  have start := vtable_address network.validated.valid updates.within placed
  refine ⟨?_, network.validated⟩
  rw [Pcd.Update.image, updates.srcAddr, updates.len, network.table, network.fwSize, start]
  refine List.map_congr_left fun i member => ?_
  have bound := List.mem_range.mp member
  rw [show host.address (ImageHeader.read image).hdrSize.toNat + i =
      host.address ((ImageHeader.read image).hdrSize.toNat + i) from Nat.add_assoc _ _ _]
  exact updates.mapped _ (by omega)

theorem exists_of_handedOver {calls : List Call} (handed : handedOver calls = true) :
    ∃ table fwSize image, calls = [.pcdNetworkCoreUpdate table fwSize image true] := by
  unfold handedOver at handed
  split at handed
  · exact ⟨_, _, _, by rw [handed]⟩
  · contradiction

theorem hands_over_payload_uploaded :
    ∃ r t table fwSize image u, contextBootGo board uploaded = some (r, t) ∧
      t.calls = [.pcdNetworkCoreUpdate table fwSize image true] ∧
      board.Updates u table fwSize image ∧
      u.image = image.load (ImageHeader.read image).hdrSize.toNat
        (ImageHeader.read image).imgSize.toNat ∧
      board.Validated .secondary image (.read image) := by
  obtain ⟨r, t, ended, -, done⟩ := uploaded_handedOver
  obtain ⟨table, fwSize, image, handed⟩ := exists_of_handedOver done
  have finished := contextBootGo_ends board_lawful rfl ended
  have network : board.ForNetwork image table fwSize := by
    simpa [handed, Host.Proper] using finished.proper
  have within : board.address (board.area .secondary).size.toNat ≤ 2 ^ 32 := by decide
  let u : Pcd.Update := {
    srcAddr := table.toNat
    len := fwSize.toNat
    fits := network.fits within (.inr rfl)
    rom := fun a => image (a - XIP_BASE.toNat)
    shmStartAddr := 0x20070000
    pageSize := 0x1000
    netCoreAppOffset := 0 }
  have updates : board.Updates u table fwSize image :=
    ⟨rfl, rfl, within, fun i _ => congrArg image (Nat.add_sub_cancel_left ..)⟩
  exact ⟨r, t, table, fwSize, image, u, ended, handed, updates,
    hands_over_payload board_lawful (.inr rfl) rfl ended handed updates⟩

end

end NcsExp.Loader
