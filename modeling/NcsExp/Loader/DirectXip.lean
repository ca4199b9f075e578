/-
# NcsExp.Loader.DirectXip -- starting an image where it is

The other half of `9loader.c`, built with `MCUBOOT_DIRECT_XIP`, and with or without
`MCUBOOT_DIRECT_XIP_REVERT`: nothing is moved, and `context_boot_go` starts the newest image that
is valid.  Each round selects the newest image of the slots still in use and validates it; if it
is not valid its slot is given up.  The slots are a list, the primary one first.  The security
counter, measured boot and data sharing are not built in.

* `newest_first`: images are tried from the newest to the oldest, each at most once; the image
  that is started is valid, and every newer one has been refused or erased (`Trials`).
* `starts_iff`: without the revert, a boot that finds two images succeeds only if their versions
  are the same.  The result of `boot_version_cmp` is kept in `rc`, which nothing clears before it
  is returned.
-/
import NcsExp.Loader.Model

namespace NcsExp.Loader.DirectXip

open NcsExp.Theory

set_option autoImplicit false

/-! ## Data -/

/-- `struct image_version` without the build number, which is not compared. -/
structure ImageVersion where
  major : UInt8
  minor : UInt8
  revision : UInt16
  deriving DecidableEq

/-- `struct image_header` with its `ih_ver`. -/
structure Image where
  hdr : ImageHeader
  ver : ImageVersion

/-- `memset(state, 0, ..)`. -/
def Image.zero : Image := ⟨.zero, ⟨0, 0, 0⟩⟩

/-- `BOOT_FLAG_SET`, `BOOT_FLAG_BAD` and `BOOT_FLAG_UNSET`. -/
inductive Flag
  | set
  | bad
  | unset
  deriving DecidableEq

/-- What is read of `struct boot_swap_state`. -/
structure BootSwapState where
  magicGood : Bool
  copyDone : Flag
  imageOk : Flag

/-- Whether `MCUBOOT_DIRECT_XIP_REVERT` is defined. -/
inductive Build
  | plain
  | revert
  deriving DecidableEq

/-- What the loader calls; `slotsEquivalent` is `ARE_SLOTS_EQUIVALENT()`. -/
structure Host (ω ι : Type) where
  area : ι → Area
  slotsEquivalent : Bool
  flashAreaOpen : ι → ω → Int × ω
  flashAreaErase : ι → ω → Int × ω
  bootReadImageHeader : ι → ω → (Int × Image) × ω
  bootutilImgValidate : ImageHeader → ι → ω → FihInt × ω
  bootReadSwapState : ι → ω → (Int × BootSwapState) × ω
  bootWriteCopyDone : ι → ω → Int × ω

/-- What became of an image that was selected. -/
inductive Outcome
  | erased
  | refused
  | valid
  deriving DecidableEq

/-- The variables of `context_boot_go`; `tried` are the slots that were selected. -/
structure Rounds (ω ι : Type) where
  world : ω
  slotUsage : ι → Bool
  selectedSlot : ι
  selectedImageHeader : Option Image
  rc : Int
  fihRc : FihInt
  tried : List (ι × Outcome)

/-- `selected_slot`, `selected_image_header` and `rc` while a round selects. -/
structure Selection (ι : Type) where
  slot : ι
  header : Option Image
  rc : Int

/-- A boot that has ended. -/
structure Ended (ω ι : Type) where
  fihRc : FihInt
  rsp : Option BootRsp
  img : ι → Image
  rounds : Rounds ω ι

/-! ## The code -/

/-- `boot_version_cmp`, lines 555-581. -/
def bootVersionCmp (ver1 ver2 : ImageVersion) : Int :=
  if ver1.major > ver2.major then 1
  else if ver1.major < ver2.major then -1
  else if ver1.minor > ver2.minor then 1
  else if ver1.minor < ver2.minor then -1
  else if ver1.revision > ver2.revision then 1
  else if ver1.revision < ver2.revision then -1
  else 0

section

variable {ω ι : Type} [DecidableEq ι] (host : Host ω ι)

/-- `flash_area_open` of all slots. -/
def openAreas : List ι → ω → Option ω
  | [], w => some w
  | i :: rest, w =>
      let (rc, w) := host.flashAreaOpen i w
      if rc = 0 then openAreas rest w else none

/-- `boot_read_image_headers` behind the first slot: a failure ends it. -/
def readHeaders (img : ι → Image) : List ι → ω → (ι → Image) × ω
  | [], w => (img, w)
  | i :: rest, w =>
      let ((rc, hdr), w) := host.bootReadImageHeader i w
      let img := Function.update img i hdr
      if rc ≠ 0 then (img, w) else readHeaders img rest w

/-- `boot_read_image_headers`, lines 83-117, with `require_all` false. -/
def bootReadImageHeaders (first : ι) (rest : List ι) (w : ω) : Int × (ι → Image) × ω :=
  let ((rc, hdr), w) := host.bootReadImageHeader first w
  let img := Function.update (fun _ => .zero) first hdr
  if rc ≠ 0 then (rc, img, w) else (0, readHeaders host img rest w)

/-- `boot_get_slot_usage`, lines 2191-2215: `slot_usage`. -/
def bootGetSlotUsage (img : ι → Image) (i : ι) : Bool := bootIsHeaderValid (img i).hdr (host.area i)

/-- `boot_check_header_erased`, lines 514-538. -/
def bootCheckHeaderErased (hdr : ImageHeader) (i : ι) (w : ω) : Int × ω :=
  let (rc, w) := host.flashAreaOpen i w
  if rc ≠ 0 then (-1, w)
  else if bootDataIsSetTo (host.area i).erasedVal (LittleEndian.bytes 4 hdr.magic.toNat) then (0, w)
  else (-1, w)

/-- `boot_validate_slot`, lines 592-671; `first` is the primary slot. -/
def bootValidateSlot (first : ι) (hdr : ImageHeader) (i : ι) (w : ω) : FihInt × ω :=
  let (rc, w) := host.flashAreaOpen i w
  if rc ≠ 0 then (FIH_FAILURE, w)
  else
    let (erased, w) := bootCheckHeaderErased host hdr i w
    if erased = 0 ∨ hdr.flags &&& IMAGE_F_NON_BOOTABLE ≠ 0 then (fihIntEncode 1, w)
    else
      let (fihRc, w) := host.bootutilImgValidate hdr i w
      if bootIsHeaderValid hdr (host.area i) = false ∨ fihRc ≠ FIH_SUCCESS then
        if i ≠ first ∨ host.slotsEquivalent then (fihIntEncode 1, (host.flashAreaErase i w).2)
        else (fihIntEncode 1, w)
      else (fihRc, w)

/-- `boot_select_or_erase`, lines 2229-2283: its result. -/
def bootSelectOrErase (i : ι) (w : ω) : Option (Int × ω) :=
  let (rc, w) := host.flashAreaOpen i w
  if rc ≠ 0 then none
  else
    let ((rc, state), w) := host.bootReadSwapState i w
    if rc ≠ 0 then none
    else if state.magicGood = false ∨ (state.copyDone = .set ∧ state.imageOk ≠ .set) then
      let (rc, w) := host.flashAreaErase i w
      if rc ≠ 0 then none else some (-1, w)
    else if state.copyDone ≠ .set then some (0, (host.bootWriteCopyDone i w).2)
    else some (0, w)

/-- The loop that selects the newest image, lines 2480-2497. -/
def select (img : ι → Image) (used : ι → Bool) : List ι → Selection ι → Selection ι
  | [], s => s
  | i :: rest, s =>
      if used i then
        match s.header with
        | none => select img used rest { s with slot := i, header := some (img i) }
        | some header =>
            let rc := bootVersionCmp (img i).ver header.ver
            if rc < 1 then select img used rest { s with rc := rc }
            else select img used rest ⟨i, some (img i), rc⟩
      else select img used rest s

/-- The variables before the first round. -/
def Rounds.zero (img : ι → Image) (first : ι) (rc : Int) (w : ω) : Rounds ω ι :=
  ⟨w, bootGetSlotUsage host img, first, none, rc, FIH_FAILURE, []⟩

/-- The newest image of the slots in use is selected. -/
def Rounds.select (first : ι) (rest : List ι) (img : ι → Image) (r : Rounds ω ι) : Rounds ω ι :=
  let s := DirectXip.select img r.slotUsage (first :: rest) ⟨first, r.selectedImageHeader, r.rc⟩
  { r with selectedSlot := s.slot, selectedImageHeader := s.header, rc := s.rc }

/-- The slot is marked as unused. -/
def Rounds.giveUp (r : Rounds ω ι) (outcome : Outcome) : Rounds ω ι :=
  { r with
    slotUsage := fun i => if i = r.selectedSlot then false else r.slotUsage i
    selectedImageHeader := none
    tried := r.tried ++ [(r.selectedSlot, outcome)] }

/-- The selected image is validated; whether the rounds end with it. -/
def Rounds.validate (first : ι) (img : ι → Image) (r : Rounds ω ι) : Rounds ω ι × Bool :=
  let (fihRc, w) := bootValidateSlot host first (img r.selectedSlot).hdr r.selectedSlot r.world
  let r := { r with world := w, fihRc := fihRc }
  if fihRc = FIH_SUCCESS then
    ({ r with tried := r.tried ++ [(r.selectedSlot, .valid)] }, true)
  else (r.giveUp .refused, false)

/-- A round, lines 2473-2545. -/
def round (build : Build) (first : ι) (rest : List ι) (img : ι → Image) (r : Rounds ω ι) :
    Option (Rounds ω ι × Bool) :=
  let r := r.select first rest img
  match build with
  | .plain => some (r.validate host first img)
  | .revert =>
      (bootSelectOrErase host r.selectedSlot r.world).map fun (rc, w) =>
        let r := { r with rc := rc, world := w }
        if rc ≠ 0 then (r.giveUp .erased, false) else r.validate host first img

/-- The rounds; `n` of them are left. -/
def rounds (build : Build) (first : ι) (rest : List ι) (img : ι → Image) :
    Nat → Rounds ω ι → Option (Rounds ω ι)
  | 0, r => some r
  | n + 1, r =>
      (round host build first rest img r).bind fun (r, valid) =>
        if valid then some r else rounds build first rest img n r

/-- What is returned, from `out` on, and what `*rsp` is if it is set. -/
def out (img : ι → Image) (r : Rounds ω ι) : Ended ω ι where
  fihRc := if r.rc ≠ 0 then fihIntEncode r.rc else r.fihRc
  rsp :=
    if r.fihRc = FIH_SUCCESS then
      r.selectedImageHeader.map fun header =>
        ⟨(host.area r.selectedSlot).deviceId, (host.area r.selectedSlot).off, header.hdr⟩
    else none
  img := img
  rounds := r

/-- `context_boot_go`, lines 2429-2620. -/
def contextBootGo (build : Build) (first : ι) (rest : List ι) (w : ω) : Option (Ended ω ι) :=
  (openAreas host (first :: rest) w).bind fun w =>
    let (rc, img, w) := bootReadImageHeaders host first rest w
    if rc ≠ 0 then some (out host img (.zero host img first rc w))
    else
      let imgCnt := (first :: rest).countP (bootGetSlotUsage host img)
      if imgCnt = 0 then some (out host img (.zero host img first BOOT_EBADIMAGE w))
      else (rounds host build first rest img imgCnt (.zero host img first rc w)).map (out host img)

end

/-! ## Versions -/

/-- The order of versions. -/
def ImageVersion.rank (v : ImageVersion) : Nat :=
  (v.major.toNat * 2 ^ 8 + v.minor.toNat) * 2 ^ 16 + v.revision.toNat

theorem bootVersionCmp_eq (v w : ImageVersion) :
    bootVersionCmp v w = if w.rank < v.rank then 1 else if v.rank < w.rank then -1 else 0 := by
  have minor := v.minor.toNat_lt
  have minor' := w.minor.toNat_lt
  have revision := v.revision.toNat_lt
  have revision' := w.revision.toNat_lt
  unfold bootVersionCmp ImageVersion.rank
  simp only [gt_iff_lt, UInt8.lt_iff_toNat_lt, UInt16.lt_iff_toNat_lt]
  split_ifs <;> omega

theorem bootVersionCmp_lt_one {v w : ImageVersion} :
    bootVersionCmp v w < 1 ↔ v.rank ≤ w.rank := by
  rw [bootVersionCmp_eq]
  split_ifs <;> simp <;> omega

theorem bootVersionCmp_eq_zero {v w : ImageVersion} :
    bootVersionCmp v w = 0 ↔ v.rank = w.rank := by
  rw [bootVersionCmp_eq]
  split_ifs <;> simp <;> omega

/-! ## What a round selects -/

section

variable {ω ι : Type} {img : ι → Image} {used : ι → Bool}

/-- The rank of the image of a slot. -/
def rank (img : ι → Image) (i : ι) : Nat := (img i).ver.rank

/-- From a selected image on, none of the others is newer than the one selected in the end. -/
theorem select_some (slots : List ι) {s : Selection ι} (header : s.header = some (img s.slot)) :
    (select img used slots s).header = some (img (select img used slots s).slot) ∧
      rank img s.slot ≤ rank img (select img used slots s).slot ∧
      ((select img used slots s).slot = s.slot ∨
        (select img used slots s).slot ∈ slots ∧ used (select img used slots s).slot = true) ∧
      ∀ j ∈ slots, used j = true → rank img j ≤ rank img (select img used slots s).slot := by
  induction slots generalizing s with
  | nil => exact ⟨header, Nat.le_refl _, .inl rfl, nofun⟩
  | cons i slots ih =>
      rw [select, header]
      by_cases inUse : used i = true
      · rw [if_pos inUse]
        dsimp only
        by_cases older : bootVersionCmp (img i).ver (img s.slot).ver < 1
        · rw [if_pos older]
          obtain ⟨chosen, newer, from_, all⟩ :=
            ih (s := { s with header := some (img s.slot), rc := _ }) rfl
          refine ⟨chosen, newer, from_.imp_right (.imp_left (List.mem_cons_of_mem i)), ?_⟩
          intro j member usedJ
          rcases List.mem_cons.mp member with rfl | inRest
          · exact (bootVersionCmp_lt_one.mp older).trans newer
          · exact all j inRest usedJ
        · rw [if_neg older]
          have above : rank img s.slot ≤ rank img i :=
            Nat.le_of_not_le (mt bootVersionCmp_lt_one.mpr older)
          obtain ⟨chosen, newer, from_, all⟩ := ih (s := ⟨i, some (img i), _⟩) rfl
          refine ⟨chosen, above.trans newer, .inr ?_, ?_⟩
          · rcases from_ with same | ⟨inRest, usedIt⟩
            · rw [same]
              exact ⟨List.mem_cons_self, inUse⟩
            · exact ⟨List.mem_cons_of_mem i inRest, usedIt⟩
          · intro j member usedJ
            rcases List.mem_cons.mp member with rfl | inRest
            · exact newer
            · exact all j inRest usedJ
      · rw [if_neg inUse]
        obtain ⟨chosen, newer, from_, all⟩ := ih header
        refine ⟨chosen, newer, from_.imp_right (.imp_left (List.mem_cons_of_mem i)), ?_⟩
        intro j member usedJ
        rcases List.mem_cons.mp member with rfl | inRest
        · exact absurd usedJ inUse
        · exact all j inRest usedJ

/-- **The newest image** of the slots in use is selected. -/
theorem select_newest {slots : List ι} {s : Selection ι} (header : s.header = none)
    (some_ : ∃ i ∈ slots, used i = true) :
    (select img used slots s).header = some (img (select img used slots s).slot) ∧
      (select img used slots s).slot ∈ slots ∧ used (select img used slots s).slot = true ∧
      ∀ j ∈ slots, used j = true → rank img j ≤ rank img (select img used slots s).slot := by
  induction slots with
  | nil =>
      obtain ⟨i, member, -⟩ := some_
      cases member
  | cons i slots ih =>
      rw [select, header]
      by_cases inUse : used i = true
      · rw [if_pos inUse]
        dsimp only
        obtain ⟨chosen, newer, from_, all⟩ :=
          @select_some ι img used slots { s with slot := i, header := some (img i) } rfl
        have newest : ∀ j ∈ i :: slots, used j = true → rank img j ≤
            rank img (select img used slots { s with slot := i, header := some (img i) }).slot := by
          intro j member usedJ
          rcases List.mem_cons.mp member with rfl | inRest
          · exact newer
          · exact all j inRest usedJ
        rcases from_ with same | ⟨inRest, usedIt⟩
        · refine ⟨chosen, ?_, ?_, newest⟩
          · rw [same]
            exact List.mem_cons_self
          · rw [same]
            exact inUse
        · exact ⟨chosen, List.mem_cons_of_mem i inRest, usedIt, newest⟩
      · rw [if_neg inUse]
        have later : ∃ i ∈ slots, used i = true := by
          obtain ⟨j, member, usedJ⟩ := some_
          rcases List.mem_cons.mp member with rfl | inRest
          · exact absurd usedJ inUse
          · exact ⟨j, inRest, usedJ⟩
        obtain ⟨chosen, inRest, usedIt, all⟩ := ih later
        refine ⟨chosen, List.mem_cons_of_mem i inRest, usedIt, ?_⟩
        intro j member usedJ
        rcases List.mem_cons.mp member with rfl | inRest
        · exact absurd usedJ inUse
        · exact all j inRest usedJ

end

/-! ## What the rounds keep -/

section

variable {ω ι : Type} [DecidableEq ι] {host : Host ω ι} {build : Build} {first : ι} {rest : List ι}
  {img : ι → Image}

/-- The image of a slot has been selected in `w`, and is validated in `u`. -/
def Marked (host : Host ω ι) (build : Build) (i : ι) (w u : ω) : Prop :=
  build = .plain ∧ u = w ∨ build = .revert ∧ bootSelectOrErase host i w = some (0, u)

/-- What becomes of the image of a slot that is selected in `w`. -/
inductive Trial (host : Host ω ι) (build : Build) (first : ι) (img : ι → Image) (w : ω) (i : ι) :
    Outcome → ω → Prop
  | erased {rc : Int} {t : ω} (revert : build = .revert) (bad : rc ≠ 0)
      (erases : bootSelectOrErase host i w = some (rc, t)) :
      Trial host build first img w i .erased t
  | refused {fihRc : FihInt} {u t : ω} (marked : Marked host build i w u)
      (fails : fihRc ≠ FIH_SUCCESS)
      (check : bootValidateSlot host first (img i).hdr i u = (fihRc, t)) :
      Trial host build first img w i .refused t
  | valid {u t : ω} (marked : Marked host build i w u)
      (check : bootValidateSlot host first (img i).hdr i u = (FIH_SUCCESS, t)) :
      Trial host build first img w i .valid t

/-- The images are tried one after the other, from `w` on. -/
inductive Trials (host : Host ω ι) (build : Build) (first : ι) (img : ι → Image) (w : ω) :
    List (ι × Outcome) → ω → Prop
  | none : Trials host build first img w [] w
  | next {before : List (ι × Outcome)} {t u : ω} {i : ι} {outcome : Outcome}
      (earlier : Trials host build first img w before t)
      (last : Trial host build first img t i outcome u) :
      Trials host build first img w (before ++ [(i, outcome)]) u

/-- The slots tried so far were given up, and are newer than those still in use. -/
structure Open (host : Host ω ι) (img : ι → Image) (slots : List ι) (usage : ι → Bool)
    (tried : List (ι × Outcome)) : Prop where
  left : ∀ i, usage i = true ↔ bootGetSlotUsage host img i = true ∧ i ∉ tried.map Prod.fst
  distinct : (tried.map Prod.fst).Nodup
  descending : tried.Pairwise fun a b => rank img b.1 ≤ rank img a.1
  above : ∀ x ∈ tried, ∀ j ∈ slots, usage j = true → rank img j ≤ rank img x.1
  givenUp : ∀ x ∈ tried, x.2 ≠ .valid

/-- Between two rounds. -/
structure Going (host : Host ω ι) (build : Build) (first : ι) (img : ι → Image) (slots : List ι)
    (w₀ : ω) (r : Rounds ω ι) : Prop where
  tries : Open host img slots r.slotUsage r.tried
  trials : Trials host build first img w₀ r.tried r.world
  header : r.selectedImageHeader = none
  failed : r.fihRc ≠ FIH_SUCCESS

/-- In a round, behind the selection. -/
structure Selected (host : Host ω ι) (img : ι → Image) (slots : List ι) (r : Rounds ω ι) :
    Prop where
  tries : Open host img slots r.slotUsage r.tried
  header : r.selectedImageHeader = some (img r.selectedSlot)
  failed : r.fihRc ≠ FIH_SUCCESS
  member : r.selectedSlot ∈ slots
  inUse : r.slotUsage r.selectedSlot = true
  newest : ∀ j ∈ slots, r.slotUsage j = true → rank img j ≤ rank img r.selectedSlot

/-- A valid image is found, behind those of `before`. -/
structure Found (host : Host ω ι) (build : Build) (first : ι) (img : ι → Image) (slots : List ι)
    (w₀ : ω) (r : Rounds ω ι) (before : List (ι × Outcome)) : Prop where
  tried : r.tried = before ++ [(r.selectedSlot, .valid)]
  trials : Trials host build first img w₀ r.tried r.world
  givenUp : ∀ x ∈ before, x.2 ≠ .valid
  header : r.selectedImageHeader = some (img r.selectedSlot)
  success : r.fihRc = FIH_SUCCESS
  checked : ∃ w,
    bootValidateSlot host first (img r.selectedSlot).hdr r.selectedSlot w = (FIH_SUCCESS, r.world)
  distinct : (r.tried.map Prod.fst).Nodup
  descending : r.tried.Pairwise fun a b => rank img b.1 ≤ rank img a.1
  newer : ∀ j ∈ slots, bootGetSlotUsage host img j = true →
    rank img r.selectedSlot < rank img j → j ∈ before.map Prod.fst

section

variable {slots : List ι} {usage : ι → Bool} {tried : List (ι × Outcome)} {i : ι}

omit [DecidableEq ι] in
/-- One more slot is tried, the newest of those in use. -/
theorem Open.next (tries : Open host img slots usage tried) (inUse : usage i = true)
    (member : i ∈ slots) (outcome : Outcome) :
    ((tried ++ [(i, outcome)]).map Prod.fst).Nodup ∧
      (tried ++ [(i, outcome)]).Pairwise fun a b => rank img b.1 ≤ rank img a.1 := by
  have fresh : i ∉ tried.map Prod.fst := ((tries.left i).mp inUse).2
  constructor
  · rw [List.map_append, List.nodup_append]
    refine ⟨tries.distinct, List.nodup_singleton i, ?_⟩
    rintro j inTried k same rfl
    rw [List.mem_singleton.mp same] at inTried
    exact fresh inTried
  · rw [List.pairwise_append]
    refine ⟨tries.descending, List.pairwise_singleton _ _, ?_⟩
    intro x inTried y same
    rw [List.mem_singleton.mp same]
    exact tries.above x inTried i member inUse

/-- Its slot is given up. -/
theorem Open.giveUp (tries : Open host img slots usage tried) (inUse : usage i = true)
    (member : i ∈ slots) (newest : ∀ j ∈ slots, usage j = true → rank img j ≤ rank img i)
    {outcome : Outcome} (invalid : outcome ≠ .valid) :
    Open host img slots (fun j => if j = i then false else usage j)
      (tried ++ [(i, outcome)]) := by
  obtain ⟨distinct, descending⟩ := tries.next inUse member outcome
  have still (j : ι) (usedJ : (if j = i then false else usage j) = true) :
      j ≠ i ∧ usage j = true := by
    by_cases same : j = i
    · rw [if_pos same] at usedJ
      cases usedJ
    · rw [if_neg same] at usedJ
      exact ⟨same, usedJ⟩
  refine ⟨?_, distinct, descending, ?_, ?_⟩
  · intro j
    have before := tries.left j
    by_cases same : j = i
    · simp [same]
    · rw [if_neg same, before]
      simp [same]
  · intro x inTried j inSlots usedJ
    rcases List.mem_append.mp inTried with old | new
    · exact tries.above x old j inSlots (still j usedJ).2
    · rw [List.mem_singleton.mp new]
      exact newest j inSlots (still j usedJ).2
  · intro x inTried
    rcases List.mem_append.mp inTried with old | new
    · exact tries.givenUp x old
    · rw [List.mem_singleton.mp new]
      exact invalid

/-- There is one slot less to try. -/
theorem countP_giveUp (distinct : slots.Nodup) (member : i ∈ slots) (inUse : usage i = true) :
    slots.countP (fun j => if j = i then false else usage j) + 1 = slots.countP usage := by
  induction slots with
  | nil => cases member
  | cons j slots ih =>
      obtain ⟨fresh, distinct⟩ := List.nodup_cons.mp distinct
      rw [List.countP_cons, List.countP_cons]
      by_cases same : j = i
      · subst same
        have others : slots.countP (fun k => if k = j then false else usage k) =
            slots.countP usage := by
          apply List.countP_congr
          intro k inRest
          have other : k ≠ j := by
            rintro rfl
            exact fresh inRest
          rw [if_neg other]
        rw [others, inUse]
        simp
      · have inRest := (List.mem_cons.mp member).resolve_left (Ne.symm same)
        have less := ih distinct inRest
        rw [if_neg same]
        omega

end

section

variable {slots : List ι} {w₀ w : ω} {r : Rounds ω ι}

/-- A selected image is valid, or its slot given up. -/
def Outcomes (host : Host ω ι) (build : Build) (first : ι) (img : ι → Image) (slots : List ι)
    (w₀ : ω) (r t : Rounds ω ι) (valid : Bool) : Prop :=
  valid = true ∧ (∃ before, Found host build first img slots w₀ t before) ∨
    valid = false ∧ Going host build first img slots w₀ t ∧
      slots.countP t.slotUsage + 1 = slots.countP r.slotUsage

theorem Selected.giveUp (selected : Selected host img slots r) (distinct : slots.Nodup)
    {outcome : Outcome} (invalid : outcome ≠ .valid)
    (trials : Trials host build first img w₀ r.tried w)
    (trial : Trial host build first img w r.selectedSlot outcome r.world) :
    Outcomes host build first img slots w₀ r (r.giveUp outcome) false := by
  have tries := selected.tries.giveUp selected.inUse selected.member selected.newest invalid
  exact .inr ⟨rfl, ⟨tries, trials.next trial, rfl, selected.failed⟩,
    countP_giveUp distinct selected.member selected.inUse⟩

theorem Selected.validate (selected : Selected host img slots r) (distinct : slots.Nodup)
    (trials : Trials host build first img w₀ r.tried w)
    (marked : Marked host build r.selectedSlot w r.world) :
    Outcomes host build first img slots w₀ r (r.validate host first img).1
      (r.validate host first img).2 := by
  unfold Rounds.validate
  generalize checked :
    bootValidateSlot host first (img r.selectedSlot).hdr r.selectedSlot r.world = result
  obtain ⟨fihRc, u⟩ := result
  dsimp only
  by_cases success : fihRc = FIH_SUCCESS
  · rw [if_pos success]
    rw [success] at checked
    obtain ⟨once, descending⟩ := selected.tries.next selected.inUse selected.member .valid
    refine .inl ⟨rfl, r.tried, rfl, trials.next (.valid marked checked), selected.tries.givenUp,
      selected.header, success, ⟨r.world, checked⟩, once, descending, ?_⟩
    intro j inSlots image newer
    by_contra fresh
    have inUse := (selected.tries.left j).mpr ⟨image, fresh⟩
    have bound := selected.newest j inSlots inUse
    exact absurd newer (Nat.not_lt.mpr bound)
  · rw [if_neg success]
    have refused : Selected host img slots { r with world := u, fihRc := fihRc } :=
      ⟨selected.tries, selected.header, success, selected.member, selected.inUse, selected.newest⟩
    exact refused.giveUp distinct (by decide) trials (.refused marked success checked)

theorem Going.select (going : Going host build first img (first :: rest) w₀ r)
    (some_ : ∃ i ∈ first :: rest, r.slotUsage i = true) :
    Selected host img (first :: rest) (r.select first rest img) := by
  obtain ⟨chosen, member, inUse, newest⟩ :=
    @select_newest ι img r.slotUsage (first :: rest) ⟨first, r.selectedImageHeader, r.rc⟩
      going.header some_
  exact ⟨going.tries, chosen, going.failed, member, inUse, newest⟩

/-- **A round.** -/
theorem round_spec {t : Rounds ω ι} {valid : Bool} (distinct : (first :: rest).Nodup)
    (going : Going host build first img (first :: rest) w₀ r)
    (some_ : ∃ i ∈ first :: rest, r.slotUsage i = true)
    (taken : round host build first rest img r = some (t, valid)) :
    Outcomes host build first img (first :: rest) w₀ r t valid := by
  have selected := going.select some_
  have trials : Trials host build first img w₀ (r.select first rest img).tried r.world :=
    going.trials
  cases build with
  | plain =>
      have same := Option.some.inj taken
      have outcomes := selected.validate distinct trials (.inl ⟨rfl, rfl⟩)
      rwa [same] at outcomes
  | revert =>
      obtain ⟨⟨rc, w⟩, result, same⟩ := Option.map_eq_some_iff.mp taken
      have marked : Selected host img (first :: rest)
          { r.select first rest img with rc := rc, world := w } :=
        ⟨selected.tries, selected.header, selected.failed, selected.member, selected.inUse,
          selected.newest⟩
      dsimp only at same
      by_cases erased : rc ≠ 0
      · rw [if_pos erased] at same
        cases same
        exact marked.giveUp distinct (by decide) trials (.erased rfl erased result)
      · rw [if_neg erased] at same
        have zero : rc = 0 := Decidable.not_not.mp erased
        rw [zero] at result
        have outcomes := marked.validate distinct trials (.inr ⟨rfl, result⟩)
        rwa [same] at outcomes

/-- **All rounds**, as many as there are images. -/
theorem rounds_spec {n : Nat} {t : Rounds ω ι} (distinct : (first :: rest).Nodup)
    (going : Going host build first img (first :: rest) w₀ r)
    (left : n ≤ (first :: rest).countP r.slotUsage)
    (taken : rounds host build first rest img n r = some t) :
    (∃ before, Found host build first img (first :: rest) w₀ t before) ∨
      Going host build first img (first :: rest) w₀ t := by
  induction n generalizing r with
  | zero =>
      cases taken
      exact .inr going
  | succ n ih =>
      rw [rounds, Option.bind_eq_some_iff] at taken
      obtain ⟨⟨w, valid⟩, first_, later⟩ := taken
      have some_ : ∃ i ∈ first :: rest, r.slotUsage i = true :=
        List.countP_pos_iff.mp (Nat.lt_of_lt_of_le n.succ_pos left)
      rcases round_spec distinct going some_ first_ with ⟨rfl, ends⟩ | ⟨rfl, goes, less⟩
      · cases later
        exact .inl ends
      · exact ih goes (by omega) later

end

/-- The rounds begin. -/
theorem Going.zero (build : Build) (img : ι → Image) (first : ι) (rc : Int) (w : ω)
    (slots : List ι) : Going host build first img slots w (.zero host img first rc w) := by
  have unset : FIH_FAILURE ≠ FIH_SUCCESS := by decide
  refine ⟨⟨?_, List.nodup_nil, List.Pairwise.nil, nofun, nofun⟩, .none, rfl, unset⟩
  intro i
  simp [Rounds.zero]

omit [DecidableEq ι] in
theorem out_fails {r : Rounds ω ι} (failed : r.fihRc ≠ FIH_SUCCESS) :
    (out host img r).fihRc ≠ FIH_SUCCESS := by
  unfold out
  dsimp only
  by_cases rc : r.rc ≠ 0
  · rw [if_pos rc]
    exact rc
  · rw [if_neg rc]
    exact failed

omit [DecidableEq ι] in
theorem out_empty {r : Rounds ω ι} (failed : r.fihRc ≠ FIH_SUCCESS) :
    (out host img r).rsp = none :=
  if_neg failed

omit [DecidableEq ι] in
/-- Behind a valid image `rc` is returned, whatever it is. -/
theorem out_fihRc {r : Rounds ω ι} (success : r.fihRc = FIH_SUCCESS) :
    (out host img r).fihRc = r.rc := by
  unfold out
  dsimp only
  by_cases rc : r.rc = 0
  · rw [if_neg (not_not.mpr rc), success, rc]
    rfl
  · rw [if_pos rc]
    rfl

/-- What is returned of a valid image. -/
theorem Found.rsp {slots : List ι} {w₀ : ω} {r : Rounds ω ι} {before : List (ι × Outcome)}
    (found : Found host build first img slots w₀ r before) :
    (out host img r).rsp =
      some ⟨(host.area r.selectedSlot).deviceId, (host.area r.selectedSlot).off,
        (img r.selectedSlot).hdr⟩ := by
  simp only [out, found.success, found.header, if_true, Option.map_some]

/-- The boot that begins in `w` has opened the slots and read the headers, and is in `w₀` now. -/
def Entered (host : Host ω ι) (first : ι) (rest : List ι) (img : ι → Image) (w w₀ : ω) : Prop :=
  ∃ u, openAreas host (first :: rest) w = some u ∧
    bootReadImageHeaders host first rest u = (0, img, w₀)

/-- How a boot that was not asserted away has ended: at once, or behind its rounds. -/
theorem contextBootGo_rounds {w : ω} {e : Ended ω ι}
    (ended : contextBootGo host build first rest w = some e) :
    ∃ w₀, (∃ rc, e = out host e.img (.zero host e.img first rc w₀)) ∨
      Entered host first rest e.img w w₀ ∧
      ∃ r, rounds host build first rest e.img
          ((first :: rest).countP (bootGetSlotUsage host e.img)) (.zero host e.img first 0 w₀) =
            some r ∧ e = out host e.img r := by
  obtain ⟨u, opened, ended⟩ := Option.bind_eq_some_iff.mp ended
  generalize read : bootReadImageHeaders host first rest u = result at ended
  obtain ⟨rc, img, w₀⟩ := result
  dsimp only at ended
  by_cases failed : rc ≠ 0
  · rw [if_pos failed] at ended
    cases ended
    exact ⟨w₀, .inl ⟨rc, rfl⟩⟩
  · rw [if_neg failed] at ended
    by_cases none_ : (first :: rest).countP (bootGetSlotUsage host img) = 0
    · rw [if_pos none_] at ended
      cases ended
      exact ⟨w₀, .inl ⟨BOOT_EBADIMAGE, rfl⟩⟩
    · have zero : rc = 0 := Decidable.not_not.mp failed
      rw [zero] at read
      rw [if_neg none_, zero] at ended
      obtain ⟨r, taken, rfl⟩ := Option.map_eq_some_iff.mp ended
      exact ⟨w₀, .inr ⟨⟨u, opened, read⟩, r, taken, rfl⟩⟩

theorem contextBootGo_cases {w : ω} {e : Ended ω ι} (distinct : (first :: rest).Nodup)
    (ended : contextBootGo host build first rest w = some e) :
    ∃ (w₀ : ω) (r : Rounds ω ι), e = out host e.img r ∧
      (Entered host first rest e.img w w₀ ∧
          (∃ before, Found host build first e.img (first :: rest) w₀ r before) ∨
        Going host build first e.img (first :: rest) w₀ r) := by
  obtain ⟨w₀, ⟨rc, same⟩ | ⟨entered, r, taken, same⟩⟩ := contextBootGo_rounds ended
  · exact ⟨w₀, _, same, .inr (Going.zero _ _ _ rc w₀ _)⟩
  · refine ⟨w₀, r, same, ?_⟩
    exact (rounds_spec distinct (Going.zero _ _ _ 0 w₀ _) (Nat.le_refl _) taken).imp_left
      fun found => ⟨entered, found⟩

/-- A valid image that is returned by the boot that begins in `w`. -/
structure Started (host : Host ω ι) (build : Build) (first : ι) (rest : List ι) (w : ω)
    (e : Ended ω ι) (i : ι) (before : List (ι × Outcome)) : Prop where
  tried : e.rounds.tried = before ++ [(i, .valid)]
  /-- The images were tried one after the other in this boot. -/
  trials : ∃ w₀, Entered host first rest e.img w w₀ ∧
    Trials host build first e.img w₀ e.rounds.tried e.rounds.world
  rsp : e.rsp = some ⟨(host.area i).deviceId, (host.area i).off, (e.img i).hdr⟩
  checked : ∃ w, bootValidateSlot host first (e.img i).hdr i w = (FIH_SUCCESS, e.rounds.world)
  newer : ∀ j ∈ first :: rest, bootGetSlotUsage host e.img j = true →
    rank e.img i < rank e.img j → ∃ outcome, (j, outcome) ∈ before ∧ outcome ≠ .valid

/-- **The newest image that is valid.**  Whatever the flash answers: images are tried from the
newest to the oldest, each at most once; a boot that succeeds starts an image that
`boot_validate_slot` has accepted, and every image that is newer has been refused by it before or,
with the revert, erased, for its trailer was bad or it had been started before and not
confirmed. -/
theorem newest_first {w : ω} {e : Ended ω ι} (distinct : (first :: rest).Nodup)
    (ended : contextBootGo host build first rest w = some e) :
    (e.rounds.tried.map Prod.fst).Nodup ∧
      (e.rounds.tried.Pairwise fun a b => rank e.img b.1 ≤ rank e.img a.1) ∧
      (e.fihRc = FIH_SUCCESS → ∃ i before, Started host build first rest w e i before) := by
  obtain ⟨w₀, r, same, ⟨entered, before, found⟩ | going⟩ := contextBootGo_cases distinct ended
  · have rounds_ : e.rounds = r := by rw [same]; rfl
    refine ⟨?_, ?_, ?_⟩
    · rw [rounds_]
      exact found.distinct
    · rw [rounds_]
      exact found.descending
    · intro success
      refine ⟨r.selectedSlot, before, ?_, ⟨w₀, entered, ?_⟩, ?_, ?_, ?_⟩
      · rw [rounds_]
        exact found.tried
      · rw [rounds_]
        exact found.trials
      · rw [same]
        exact found.rsp
      · rw [rounds_]
        exact found.checked
      · intro j inSlots image newer
        have member := found.newer j inSlots image newer
        obtain ⟨⟨k, outcome⟩, inBefore, rfl⟩ := List.mem_map.mp member
        exact ⟨outcome, inBefore, found.givenUp _ inBefore⟩
  · have rounds_ : e.rounds = r := by rw [same]; rfl
    refine ⟨?_, ?_, ?_⟩
    · rw [rounds_]
      exact going.tries.distinct
    · rw [rounds_]
      exact going.tries.descending
    · intro success
      rw [same] at success
      exact absurd success (out_fails going.failed)

end

/-! ## Two images

The newer one, in the secondary slot, is not valid. -/

def twoImages : Host Unit Slot where
  area
    | .primary => ⟨0, 0xc000, 0x76000, 0xff, true⟩
    | .secondary => ⟨0, 0x82000, 0x76000, 0xff, true⟩
  slotsEquivalent := true
  flashAreaOpen _ w := (0, w)
  flashAreaErase _ w := (0, w)
  bootReadImageHeader
    | .primary, w => ((0, ⟨⟨0x96f3b83d, 32, 0, 16, 0⟩, ⟨1, 0, 0⟩⟩), w)
    | .secondary, w => ((0, ⟨⟨0x96f3b83d, 32, 0, 16, 0⟩, ⟨1, 1, 0⟩⟩), w)
  bootutilImgValidate
    | _, .primary, w => (FIH_SUCCESS, w)
    | _, .secondary, w => (FIH_FAILURE, w)
  bootReadSwapState _ w := ((0, ⟨true, .unset, .unset⟩), w)
  bootWriteCopyDone _ w := (0, w)

theorem newest_first_older :
    ∃ e, contextBootGo twoImages .revert .primary [.secondary] () = some e ∧
      e.fihRc = FIH_SUCCESS ∧
      (e.rounds.tried.map Prod.fst).Nodup ∧
      (e.rounds.tried.Pairwise fun a b => rank e.img b.1 ≤ rank e.img a.1) ∧
      (e.fihRc = FIH_SUCCESS → ∃ i before,
        Started twoImages .revert .primary [.secondary] () e i before) := by
  have boots : (contextBootGo twoImages .revert .primary [.secondary] ()).map Ended.fihRc =
      some FIH_SUCCESS := by decide +kernel
  obtain ⟨e, ended, success⟩ := Option.map_eq_some_iff.mp boots
  exact ⟨e, ended, success, newest_first (by decide) ended⟩

/-! ## What the comparison leaves in `rc` -/

section

variable {ω ι : Type} [DecidableEq ι] {host : Host ω ι} {build : Build} {first second : ι}
  {img : ι → Image}

/-- What a selection of two slots leaves in `rc`. -/
def leaves (img : ι → Image) (first second : ι) (used : ι → Bool) (rc : Int) : Int :=
  if used first = true ∧ used second = true then
    bootVersionCmp (img second).ver (img first).ver
  else rc

omit [DecidableEq ι] in
theorem select_pair (used : ι → Bool) (slot : ι) (rc : Int) :
    (select img used [first, second] ⟨slot, none, rc⟩).rc = leaves img first second used rc := by
  cases usedFirst : used first with
  | false => cases usedSecond : used second <;> simp [select, leaves, usedFirst, usedSecond]
  | true =>
      cases usedSecond : used second with
      | false => simp [select, leaves, usedFirst, usedSecond]
      | true =>
          by_cases older : bootVersionCmp (img second).ver (img first).ver < 1
          · simp [select, leaves, usedFirst, usedSecond, older]
          · simp [select, leaves, usedFirst, usedSecond, older]

/-- Without the revert, the next selection leaves `owed`. -/
def Owing (build : Build) (img : ι → Image) (first second : ι) (owed : Int) (r : Rounds ω ι) :
    Prop :=
  build = .plain → leaves img first second r.slotUsage r.rc = owed

/-- A slot given up owes nothing more. -/
theorem giveUp_leaves {r : Rounds ω ι} (member : r.selectedSlot ∈ [first, second])
    (outcome : Outcome) :
    leaves img first second (r.giveUp outcome).slotUsage (r.giveUp outcome).rc = r.rc := by
  have one : ¬ ((r.giveUp outcome).slotUsage first = true ∧
      (r.giveUp outcome).slotUsage second = true) := by
    rintro ⟨usedFirst, usedSecond⟩
    rcases List.mem_pair.mp member with same | same
    · simp [Rounds.giveUp, same] at usedFirst
    · simp [Rounds.giveUp, same] at usedSecond
  unfold leaves
  rw [if_neg one]
  rfl

theorem validate_rc (host : Host ω ι) (img : ι → Image) {r : Rounds ω ι}
    (member : r.selectedSlot ∈ [first, second]) :
    ((r.validate host first img).2 = true ∧ (r.validate host first img).1.rc = r.rc) ∨
      ((r.validate host first img).2 = false ∧
        leaves img first second (r.validate host first img).1.slotUsage
          (r.validate host first img).1.rc = r.rc) := by
  unfold Rounds.validate
  dsimp only
  split
  · exact .inl ⟨rfl, rfl⟩
  · exact .inr ⟨rfl, giveUp_leaves member .refused⟩

/-- A round that finds no valid image owes what was owed before it. -/
theorem round_rc {owed : Int} {w₀ : ω} {r t : Rounds ω ι} {valid : Bool}
    (revert : build = .revert → owed = 0)
    (going : Going host build first img [first, second] w₀ r)
    (some_ : ∃ i ∈ [first, second], r.slotUsage i = true)
    (owing : Owing build img first second owed r)
    (taken : round host build first [second] img r = some (t, valid)) :
    (valid = true ∧ t.rc = owed) ∨ (valid = false ∧ Owing build img first second owed t) := by
  have member := (going.select some_).member
  cases build with
  | plain =>
      have same := Option.some.inj taken
      have rc : (r.select first [second] img).rc = owed := by
        rw [← owing rfl, ← select_pair r.slotUsage first, ← going.header]
        rfl
      have validated := validate_rc host img member
      rw [same, rc] at validated
      exact validated.imp_right (And.imp_right fun owed _ => owed)
  | revert =>
      obtain ⟨⟨rc, w⟩, -, same⟩ := Option.map_eq_some_iff.mp taken
      dsimp only at same
      cases valid with
      | false => exact .inr ⟨rfl, nofun⟩
      | true =>
          by_cases erased : rc ≠ 0
          · rw [if_pos erased] at same
            cases same
          · rw [if_neg erased] at same
            have validated := validate_rc host img
              (r := { r.select first [second] img with rc := rc, world := w }) member
            rw [same] at validated
            rcases validated with ⟨-, kept⟩ | ⟨refused, -⟩
            · left
              refine ⟨rfl, ?_⟩
              rw [kept, revert rfl]
              exact Decidable.not_not.mp erased
            · cases refused

theorem rounds_rc {owed : Int} {n : Nat} {w₀ : ω} {r t : Rounds ω ι} (distinct : first ≠ second)
    (revert : build = .revert → owed = 0)
    (going : Going host build first img [first, second] w₀ r)
    (left : n ≤ [first, second].countP r.slotUsage)
    (owing : Owing build img first second owed r)
    (taken : rounds host build first [second] img n r = some t) :
    t.fihRc = FIH_SUCCESS → t.rc = owed := by
  have nodup : [first, second].Nodup := by simp [distinct]
  induction n generalizing r with
  | zero =>
      cases taken
      intro success
      exact absurd success going.failed
  | succ n ih =>
      rw [rounds, Option.bind_eq_some_iff] at taken
      obtain ⟨⟨w, valid⟩, first_, later⟩ := taken
      have some_ : ∃ i ∈ [first, second], r.slotUsage i = true :=
        List.countP_pos_iff.mp (Nat.lt_of_lt_of_le n.succ_pos left)
      rcases round_rc revert going some_ owing first_ with ⟨rfl, rc⟩ | ⟨rfl, owed⟩
      · cases later
        intro _
        exact rc
      · obtain ⟨valid, -⟩ | ⟨-, goes, less⟩ := round_spec nodup going some_ first_
        · cases valid
        · exact ih goes (by omega) owed later

/-- What a boot of two slots returns once it has found a valid image: without the revert, the last
comparison of the two. -/
def returned (host : Host ω ι) (build : Build) (first second : ι) (img : ι → Image) : FihInt :=
  if build = .plain ∧ bootGetSlotUsage host img first = true ∧
      bootGetSlotUsage host img second = true then
    fihIntEncode (bootVersionCmp (img second).ver (img first).ver)
  else FIH_SUCCESS

omit [DecidableEq ι] in
theorem returned_eq_success :
    returned host build first second img = FIH_SUCCESS ↔
      (build = .plain → bootGetSlotUsage host img first = true →
        bootGetSlotUsage host img second = true → rank img first = rank img second) := by
  unfold returned
  by_cases both : build = .plain ∧ bootGetSlotUsage host img first = true ∧
      bootGetSlotUsage host img second = true
  · obtain ⟨plain, usedFirst, usedSecond⟩ := both
    rw [if_pos ⟨plain, usedFirst, usedSecond⟩]
    refine bootVersionCmp_eq_zero.trans ⟨fun same _ _ _ => same.symm, fun same => ?_⟩
    exact (same plain usedFirst usedSecond).symm
  · rw [if_neg both]
    refine iff_of_true rfl fun plain usedFirst usedSecond => ?_
    exact absurd ⟨plain, usedFirst, usedSecond⟩ both

/-- Behind a valid image `rc` is what is returned. -/
theorem rounds_returned {w₀ : ω} {r : Rounds ω ι} (distinct : first ≠ second)
    (taken : rounds host build first [second] img
      ([first, second].countP (bootGetSlotUsage host img)) (.zero host img first 0 w₀) = some r)
    (success : r.fihRc = FIH_SUCCESS) : r.rc = returned host build first second img := by
  have going : Going host build first img [first, second] w₀ (.zero host img first 0 w₀) :=
    Going.zero build img first 0 w₀ [first, second]
  cases build with
  | plain =>
      have plain : Build.plain = .revert →
          leaves img first second (bootGetSlotUsage host img) 0 = 0 := nofun
      have owed := rounds_rc distinct plain going (Nat.le_refl _) (fun _ => rfl) taken success
      rw [owed, leaves, returned]
      simp only [true_and]
      rfl
  | revert => exact rounds_rc distinct (fun _ => rfl) going (Nat.le_refl _) nofun taken success

/-- **When a boot succeeds.**  With two slots, `*rsp` is filled whenever a valid image is found.
Without the revert the boot succeeds only if, moreover, there were not two images of different
versions: the result of `boot_version_cmp` is still in `rc`, and is returned instead. -/
theorem starts_iff {w : ω} {e : Ended ω ι} (distinct : first ≠ second)
    (ended : contextBootGo host build first [second] w = some e) :
    (e.fihRc = FIH_SUCCESS ↔ e.rsp ≠ none ∧
      (build = .plain → bootGetSlotUsage host e.img first = true →
        bootGetSlotUsage host e.img second = true → rank e.img first = rank e.img second)) ∧
    (e.rsp ≠ none → e.fihRc = returned host build first second e.img) := by
  have nodup : [first, second].Nodup := by simp [distinct]
  have unfilled (failed : e.fihRc ≠ FIH_SUCCESS) (empty : e.rsp = none) :
      (e.fihRc = FIH_SUCCESS ↔ e.rsp ≠ none ∧
        (build = .plain → bootGetSlotUsage host e.img first = true →
          bootGetSlotUsage host e.img second = true → rank e.img first = rank e.img second)) ∧
      (e.rsp ≠ none → e.fihRc = returned host build first second e.img) :=
    ⟨iff_of_false failed fun filled => filled.1 empty, fun filled => absurd empty filled⟩
  obtain ⟨w₀, ⟨rc, same⟩ | ⟨-, r, taken, same⟩⟩ := contextBootGo_rounds ended
  · have failed : (Rounds.zero host e.img first rc w₀).fihRc ≠ FIH_SUCCESS :=
      (Going.zero build e.img first rc w₀ [first, second]).failed
    apply unfilled
    · rw [same]
      exact out_fails failed
    · rw [same]
      exact out_empty failed
  · have going : Going host build first e.img [first, second] w₀ (.zero host e.img first 0 w₀) :=
      Going.zero build e.img first 0 w₀ [first, second]
    rcases rounds_spec nodup going (Nat.le_refl _) taken with ⟨before, found⟩ | still
    · have filled : e.rsp ≠ none := by
        rw [same, found.rsp]
        exact Option.some_ne_none _
      have rc := rounds_returned distinct taken found.success
      have result : e.fihRc = returned host build first second e.img :=
        calc e.fihRc = (out host e.img r).fihRc := congrArg Ended.fihRc same
          _ = r.rc := out_fihRc found.success
          _ = returned host build first second e.img := rc
      refine ⟨?_, fun _ => result⟩
      rw [result, and_iff_right filled]
      exact returned_eq_success
    · apply unfilled
      · rw [same]
        exact out_fails still.failed
      · rw [same]
        exact out_empty still.failed

end

/-- Of two images the second is newer and not valid: the first is in `*rsp`, and 1 is returned. -/
theorem starts_iff_twoImages :
    ∃ e, contextBootGo twoImages .plain .primary [.secondary] () = some e ∧ e.fihRc = 1 ∧
      (e.fihRc = FIH_SUCCESS ↔ e.rsp ≠ none ∧
        (Build.plain = .plain → bootGetSlotUsage twoImages e.img .primary = true →
          bootGetSlotUsage twoImages e.img .secondary = true →
          rank e.img .primary = rank e.img .secondary)) ∧
      (e.rsp ≠ none → e.fihRc = returned twoImages .plain .primary .secondary e.img) := by
  have boots : (contextBootGo twoImages .plain .primary [.secondary] ()).map Ended.fihRc =
      some 1 := by decide +kernel
  obtain ⟨e, ended, one⟩ := Option.map_eq_some_iff.mp boots
  exact ⟨e, ended, one, starts_iff (by decide) ended⟩

end NcsExp.Loader.DirectXip
