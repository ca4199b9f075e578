/-
# NcsExp.BeaconScan.Beacon -- the beacon that the scanner is for

`main` of `test_coded_phy_beacon` advertises its name and 50 bytes of manufacturer data, a
second in each round, and counts the rounds in the fifth of these bytes
(`fill_mf_ad_pkg`).  It ends at the first call that fails.

`beacon_scanned`: what is on the air in a round is accepted by the scanner, read within its
bounds, and written out as it was filled in.  The text of a round ends at the first zero: in
every 256th round that is the counter itself.
-/
import NcsExp.BeaconScan.Bounds
import Mathlib.Data.List.Basic

namespace NcsExp.BeaconScan

open NcsExp.Theory

set_option autoImplicit false

/-! ## The beacon -/

def ADV_MF_DATA_LEN : Nat := 50

/-- `g_adv_mf_data`. -/
structure AdvMfData where
  bytes : List UInt8
  length : bytes.length = ADV_MF_DATA_LEN
  deriving DecidableEq

/-- As the program starts. -/
def AdvMfData.zero : AdvMfData := ⟨List.replicate ADV_MF_DATA_LEN 0, List.length_replicate⟩

/-- `g_adv_mf_data[i] = b`. -/
def AdvMfData.set (d : AdvMfData) (i : Nat) (b : UInt8) : AdvMfData :=
  ⟨d.bytes.set i b, by rw [List.length_set, d.length]⟩

/-- `g_adv_mf_data[i]`. -/
def AdvMfData.get (d : AdvMfData) (i : Nat) : UInt8 := d.bytes.getD i 0

def MANUFACTURE_ID : Nat := 0x0059

/-- `fill_mf_ad_pkg`, lines 120-133. -/
def fillMfAdPkg (d : AdvMfData) : AdvMfData :=
  let d := d.set 0 (MANUFACTURE_ID &&& 0xff).toUInt8
  let d := d.set 1 (0xff &&& (MANUFACTURE_ID >>> 8)).toUInt8
  let d := d.set 2 0xaa
  let d := d.set 3 0x55
  let d := d.set 4 (d.get 4 + 1)
  let d := d.set 5 0x55
  d.set 6 0xaa

def BT_DATA_MANUFACTURER_DATA : UInt8 := 0xff

/-- The second entry of `ad`. -/
def manufacturerData (d : AdvMfData) : AdStructure where
  type := BT_DATA_MANUFACTURER_DATA
  data := d.bytes
  short := by
    rw [d.length]
    decide

/-- `ad`, as it is advertised. -/
def ad (d : AdvMfData) : List UInt8 := AdStructure.encodeAll [nameComplete, manufacturerData d]

/-- What the three calls of a round return. -/
structure Round where
  setData : Int
  start : Int
  stop : Int

/-- The loop of `main`, lines 168-204: what is on the air in each round. -/
def advertise (d : AdvMfData) : List Round → List (List UInt8)
  | [] => []
  | r :: rest =>
      let d := fillMfAdPkg d
      if r.setData ≠ 0 then []
      else if r.start ≠ 0 then []
      else if r.stop ≠ 0 then [ad d]
      else ad d :: advertise d rest

/-! ## The rounds -/

/-- The manufacturer data with `n` rounds counted. -/
def counted (n : Nat) : List UInt8 :=
  [0x59, 0, 0xaa, 0x55, .ofNat n, 0x55, 0xaa] ++ List.replicate 43 0

/-- The counter is at `n`, and what no round fills in is zero. -/
def AtRound (n : Nat) (d : AdvMfData) : Prop :=
  ∃ a b c e f g, d.bytes = a :: b :: c :: e :: .ofNat n :: f :: g :: List.replicate 43 0

theorem atRound_zero : AtRound 0 .zero := ⟨0, 0, 0, 0, 0, 0, rfl⟩

theorem atRound_of_counted {n : Nat} {d : AdvMfData} (filled : d.bytes = counted n) : AtRound n d :=
  ⟨_, _, _, _, _, _, filled⟩

/-- One round more. -/
theorem fillMfAdPkg_counted {n : Nat} {d : AdvMfData} (filled : AtRound n d) :
    (fillMfAdPkg d).bytes = counted (n + 1) := by
  obtain ⟨a, b, c, e, f, g, bytes⟩ := filled
  have next : UInt8.ofNat n + 1 = .ofNat (n + 1) := (UInt8.ofNat_add n 1).symm
  have low : (MANUFACTURE_ID &&& 0xff).toUInt8 = 0x59 := by decide
  have high : (0xff &&& (MANUFACTURE_ID >>> 8)).toUInt8 = 0 := by decide
  simp only [fillMfAdPkg, AdvMfData.set, AdvMfData.get, bytes, low, high, List.set_cons_zero,
    List.set_cons_succ, List.getD_cons_zero, List.getD_cons_succ, next]
  rfl

/-- What is on the air in round `i` counts `i + 1` rounds. -/
theorem advertise_counted {d : AdvMfData} {n i : Nat} {rounds : List Round} {payload : List UInt8}
    (filled : AtRound n d) (onAir : (advertise d rounds)[i]? = some payload) :
    ∃ e : AdvMfData, e.bytes = counted (n + i + 1) ∧ payload = ad e := by
  induction rounds generalizing d n i with
  | nil => simp [advertise] at onAir
  | cons r rest ih =>
      have next := fillMfAdPkg_counted filled
      rw [advertise] at onAir
      split at onAir
      · simp at onAir
      split at onAir
      · simp at onAir
      split at onAir
      · cases i with
        | zero => exact ⟨_, next, (Option.some.inj onAir).symm⟩
        | succ i => simp at onAir
      · cases i with
        | zero => exact ⟨_, next, (Option.some.inj onAir).symm⟩
        | succ i =>
            obtain ⟨e, bytes, same⟩ := ih (atRound_of_counted next) onAir
            refine ⟨e, ?_, same⟩
            rw [bytes, Nat.add_right_comm n 1 i, Nat.add_assoc n i 1]

/-! ## What the scanner makes of it -/

variable {d : AdvMfData} {n : Nat}

theorem ad_eq (d : AdvMfData) :
    ad d = nameComplete.encode ++ ((manufacturerData d).encode ++ []) := rfl

theorem named_ad (d : AdvMfData) : Named (ad d) := by
  rw [Named, ad_eq, AdStructure.parse_encode_append]
  exact List.mem_cons_self

theorem length_ad (d : AdvMfData) : (ad d).length = 65 := by
  rw [ad_eq, List.length_append, List.length_append, AdStructure.length_encode,
    AdStructure.length_encode]
  have length : (manufacturerData d).data.length = 50 := d.length
  rw [length]
  rfl

/-- The scanner reads nothing outside of the advertisement, and `temp1` is large enough. -/
theorem safe_ad (d : AdvMfData) (behind : Memory UInt8) : Safe (ad d) behind := by
  have zero : advData (ad d) behind 0 = 12 := advData_eq rfl
  have offset : dataOffset (advData (ad d) behind) = 13 := by
    rw [dataOffset, zero]
    rfl
  have second : advData (ad d) behind 13 = 51 := by
    apply advData_eq
    have length : (manufacturerData d).data.length = 50 := d.length
    change (nameComplete.encode ++
      ((manufacturerData d).encode ++ []))[nameComplete.encode.length]? = _
    rw [List.getElem?_append_right (Nat.le_refl _), Nat.sub_self, List.append_nil,
      AdStructure.encode, List.getElem?_cons_zero, length]
    rfl
  have at_ : (13 : UInt8).toNat = 13 := rfl
  refine ⟨(inside_iff _ _).mpr ?_, by rw [offset, zero]; rfl⟩
  rw [length_ad, offset, data0Count, data1Count, zero, offset, at_, second]
  refine ⟨by decide, ?_, by decide, ?_⟩
  all_goals
    rw [Access.Inside, temp1Size]
    decide

/-- The text that the scanner writes for the data of a round. -/
def roundText (n : Nat) : List UInt8 :=
  if n % 256 = 0 then [0xaa, 0x55] else [0xaa, 0x55, .ofNat n, 0x55, 0xaa]

theorem takeWhile_counted (n : Nat) :
    ([0xaa, 0x55, UInt8.ofNat n, 0x55, 0xaa] ++ List.replicate 43 0).takeWhile (· ≠ 0) =
      roundText n := by
  have wraps : UInt8.ofNat n = 0 ↔ n % 256 = 0 := by
    rw [← UInt8.toNat_inj, UInt8.toNat_ofNat']
    rfl
  rw [roundText]
  by_cases last : n % 256 = 0
  · rw [if_pos last, wraps.mpr last]
    rfl
  · have some_ : UInt8.ofNat n ≠ 0 := mt wraps.mp last
    rw [if_neg last]
    simp [some_, List.replicate_succ]

/-- **The scanner reads the beacon.**  What is on the air in round `i`, if the beacon gets so far,
has the name that the scanner looks for; the scanner stays within the advertisement and its
buffer; and it writes out the two structures, the manufacturer 0059 and the number of the round,
from which on the text is cut where the number is a multiple of 256. -/
theorem beacon_scanned (rounds : List Round) {i : Nat} {payload : List UInt8}
    (onAir : (advertise .zero rounds)[i]? = some payload) (behind : Memory UInt8) (count : UInt8)
    (info : RecvInfo) :
    Named payload ∧ Safe payload behind ∧
      (scanFilterMatch count info (advData payload behind) payload.length).1.drop 5 =
        [.recvData0Type BT_DATA_NAME_COMPLETE, .recvData0Len 12, .recvData0Data devName,
          .recvData1Type BT_DATA_MANUFACTURER_DATA, .recvData1Len 51, .recvData1Id 0x00 0x59,
          .recvData1Data (roundText (i + 1))] := by
  obtain ⟨e, bytes, rfl⟩ := advertise_counted atRound_zero onAir
  rw [Nat.zero_add] at bytes
  refine ⟨named_ad e, safe_ad e behind, ?_⟩
  have company : (manufacturerData e).data =
      0x59 :: 0x00 :: ([0xaa, 0x55, .ofNat (i + 1), 0x55, 0xaa] ++ List.replicate 43 0) := bytes
  have written := scanFilterMatch_structures count info behind (ad e).length nameComplete
    (manufacturerData e) 0x00 0x59 _ [] company (by decide)
  have length : (manufacturerData e).data.length = 50 := e.length
  rw [← ad_eq, takeWhile_counted, length] at written
  rw [written]
  rfl

/-- The second round, after which the beacon does not stop. -/
theorem beacon_scanned_second :
    ∃ payload, (advertise .zero [⟨0, 0, 0⟩, ⟨0, 0, -5⟩, ⟨0, 0, 0⟩])[1]? = some payload ∧
      Safe payload fun _ => 0 := by
  refine ⟨ad (fillMfAdPkg (fillMfAdPkg .zero)), rfl, ?_⟩
  exact (beacon_scanned [⟨0, 0, 0⟩, ⟨0, 0, -5⟩, ⟨0, 0, 0⟩] (i := 1) rfl (fun _ => 0) 7
    ⟨0, [], -40⟩).2.1

end NcsExp.BeaconScan
