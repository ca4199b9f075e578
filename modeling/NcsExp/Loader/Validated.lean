/-
# NcsExp.Loader.Validated -- only a validated image is started

Whatever a boot does before, it starts the image of the primary slot with the header under which
that image has been validated as it is in flash then (`starts_validated`).  The header is the
delicate part: the loader keeps it in its own memory, reads it where an interrupted swap has left
it, and validates with what it has.  It is the header in flash, unless the boot read that of the
primary slot for an interrupted swap and then failed to read that of the secondary slot; the swap
is not resumed then, and the header not read again.
-/
import NcsExp.Loader.NetworkCore

namespace NcsExp.Loader

open NcsExp.Theory Std.Do

set_option autoImplicit false
set_option mvcgen.warning false

/-! ## Behind a swap -/

section

variable {ω : Type} {host : Host ω} (lawful : host.Lawful) (s₀ : State ω)

include lawful

/-- Behind a swap the headers are where the slots begin. -/
theorem bootSwapImage_settled :
    ⦃fun s => ⌜s = s₀⌝⦄ bootSwapImage host
    ⦃⇓? _ => fun s => ⌜host.Settled (some s.bs) ∧ s.swapType = s₀.swapType⌝⦄ := by
  have size := imageSizeOf_spec lawful
  mvcgen [bootSwapImage, assertZero, size]
  all_goals grind -ring -linarith [SameSlots, Same, Host.Settled]

theorem bootPerformUpdate_settled :
    ⦃fun s => ⌜s = s₀⌝⦄ bootPerformUpdate host
    ⦃⇓? _ => fun s => ⌜host.Settled (some s.bs) ∧
      (s.swapType = s₀.swapType ∨ s.swapType = .panic)⌝⦄ := by
  have swap := bootSwapImage_settled lawful
  mvcgen [bootPerformUpdate, assertZero, swap]
  all_goals grind -ring -linarith

theorem bootCompletePartialSwap_settled :
    ⦃fun s => ⌜s = s₀⌝⦄ bootCompletePartialSwap host
    ⦃⇓? _ => fun s => ⌜host.Settled (some s.bs)⌝⦄ := by
  have swap := bootSwapImage_settled lawful
  mvcgen [bootCompletePartialSwap, assertZero, swap]
  all_goals grind -ring -linarith

end

/-! ## A boot -/

section

variable {ω : Type} (host : Host ω)

/-- The loader has found an interrupted swap and does not resume it, for it has read the header `h`
of the primary slot and then not that of the secondary one.  The slots are as they were then. -/
structure Host.NotResumed (s : State ω) (h : ImageHeader) : Prop where
  none_ : s.swapType = .none
  found : ∃ w bs, host.contents w = host.contents s.world ∧
    (host.swapReadStatus .reset w).1 = (0, bs) ∧ s.bs = { bs with swapType := s.bs.swapType } ∧
    host.LeftBySwap bs (host.swapReadStatus .reset w).2 h

variable {host}

/-- The status of an interrupted swap has been read in `w`, and then the headers. -/
theorem Host.NotResumed.of_read {s : State ω} {w : ω} {h : ImageHeader}
    (left : host.LeftBySwap (host.swapReadStatus .reset w).1.2 (host.swapReadStatus .reset w).2 h)
    (read : (host.swapReadStatus .reset w).1.1 = 0)
    (contents : host.contents w = host.contents s.world)
    (status : s.bs = (host.swapReadStatus .reset w).1.2) (none_ : s.swapType = .none) :
    host.NotResumed s h := by
  refine ⟨none_, w, _, contents, Prod.ext read rfl, ?_, left⟩
  rw [status]

/-- It stays so while the slots are read and the status takes a swap type. -/
theorem Host.NotResumed.of_same {s t : State ω} {h : ImageHeader} (before : host.NotResumed s h)
    (swapType : t.swapType = s.swapType) (contents : host.contents t.world = host.contents s.world)
    (status : t.bs = { s.bs with swapType := t.bs.swapType }) : host.NotResumed t h := by
  obtain ⟨none_, w, bs, same, read, bs_, left⟩ := before
  refine ⟨swapType.trans none_, w, bs, same.trans contents.symm, read, ?_, left⟩
  rw [bs_] at status
  exact status

/-- And while the boot does nothing else. -/
theorem Host.NotResumed.of_samePrimary {s t : State ω} {h : ImageHeader}
    (before : host.NotResumed s h) (same : SamePrimary host s t)
    (contents : host.contents t.world = host.contents s.world) : host.NotResumed t h := by
  apply before.of_same same.swapType contents
  rw [same.bs]

variable (host)

/-- The header that the loader has of the primary slot is the one in flash, or none was read, or
it is the one that a swap has left that is not resumed. -/
def KnownPrimary (s : State ω) : Prop :=
  s.hdr .primary = .read (host.contents s.world .primary) ∨ s.hdr .primary = .zero ∨
    host.NotResumed s (s.hdr .primary)

/-- Where nothing is to be swapped the header is known, and where something is no swap has begun. -/
structure Prepared (s : State ω) : Prop where
  stays : s.swapType = .none → KnownPrimary host s
  begins : s.swapType ≠ .none → s.bs.isReset = true

end

section

variable {ω : Type} {host : Host ω} (lawful : host.Lawful)

include lawful

theorem bootPrepareImageForUpdate_prepared :
    ⦃fun s => ⌜s.hdr .primary = .zero ∧ s.hdr .secondary = .zero⌝⦄ bootPrepareImageForUpdate host
    ⦃⇓? _ => fun s => ⌜Prepared host s⌝⦄ := by
  have sectors := bootReadSectors_spec lawful
  have headers := bootReadImageHeaders_spec lawful
  have complete := bootCompletePartialSwap_settled lawful
  have fresh := freshSwapType_spec lawful
  mvcgen [bootPrepareImageForUpdate, setSwapType, assertZero, sectors, headers, complete, fresh]
  all_goals constructor
  all_goals grind -ring -linarith [SameSlots, Same, HeadersRead, SwapTyped, KnownPrimary,
    KnownSecondary, Host.NotResumed.of_read,
    Host.Lawful, Host.Reads, Host.Settled]

theorem bootUpdate_ready :
    ⦃fun s => ⌜Prepared host s⌝⦄ bootUpdate host
    ⦃⇓? _ => fun s => ⌜(s.swapType = .none → KnownPrimary host s) ∧
      (s.swapType ≠ .none → host.Settled (some s.bs))⌝⦄ := by
  have perform := bootPerformUpdate_settled lawful
  mvcgen [bootUpdate, setSwapType, assertZero, perform]
  all_goals grind -ring -linarith [Prepared, KnownPrimary, BootStatus.isReset, Host.Settled,
    Host.NotResumed.of_same]

theorem contextBootGo_validated :
    ⦃⌜True⌝⦄ contextBootGo host
    ⦃⇓? (fihRc, rsp) => fun s => ⌜fihRc = FIH_SUCCESS → ∃ r, rsp = some r ∧
      host.Validated .primary (host.contents s.world .primary) r.hdr ∧
      (r.hdr = .read (host.contents s.world .primary) ∨ host.NotResumed s r.hdr)⌝⦄ := by
  have prepare := bootPrepareImageForUpdate_prepared lawful
  have update := bootUpdate_ready lawful
  have headers := bootReadImageHeaders_spec lawful
  have validate := bootValidateSlot_spec lawful
  mvcgen [contextBootGo, assertZero, prepare, update, headers, validate]
  all_goals grind -ring -linarith [SlotValidated, SamePrimary, Same, HeadersRead, KnownPrimary,
    Host.Validated.ne_zero, Host.NotResumed.of_samePrimary, fihIntEncode, FIH_SUCCESS]

/-- **Only a validated image is started.**  If a boot comes to its end with `FIH_SUCCESS`, whatever
was swapped, resumed or handed over in it, then the image that is in the primary slot now has been
validated, as it is now, under the header that the boot starts it with.  This header is that of
the image, or the one that an interrupted swap has left, where the swap was not resumed because
the header of the secondary slot could not be read. -/
theorem starts_validated {s t : State ω} {rsp : Option BootRsp}
    (ended : contextBootGo host s = some ((FIH_SUCCESS, rsp), t)) :
    ∃ r, rsp = some r ∧ host.Validated .primary (host.contents t.world .primary) r.hdr ∧
      (r.hdr = .read (host.contents t.world .primary) ∨ host.NotResumed t r.hdr) :=
  of_triple (P := fun _ => True) (Q := fun r s => r.1 = FIH_SUCCESS → ∃ q, r.2 = some q ∧
      host.Validated .primary (host.contents s.world .primary) q.hdr ∧
      (q.hdr = .read (host.contents s.world .primary) ∨ host.NotResumed s q.hdr))
    (contextBootGo_validated lawful) trivial ended rfl

end

theorem starts_validated_uploaded :
    ∃ rsp t, contextBootGo board uploaded = some ((FIH_SUCCESS, rsp), t) ∧
      ∃ r, rsp = some r ∧ board.Validated .primary (board.contents t.world .primary) r.hdr ∧
        (r.hdr = .read (board.contents t.world .primary) ∨
          board.NotResumed t r.hdr) := by
  obtain ⟨⟨fihRc, rsp⟩, t, ended, started, -⟩ := uploaded_handedOver
  obtain rfl : fihRc = FIH_SUCCESS := started
  exact ⟨rsp, t, ended, starts_validated board_lawful ended⟩

end NcsExp.Loader
