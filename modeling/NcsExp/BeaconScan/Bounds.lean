/-
# NcsExp.BeaconScan.Bounds -- what the beacon scanner reads of an advertisement

`scan_filter_match` is called for an advertisement whose name is "Test beacon".  It takes the
advertising data for two AD structures, of which the second is manufacturer data, and uses
their length bytes without a look at the length of the data or at the size of `temp1`.

`scan_bounds_iff`: it stays inside the data and inside `temp1` exactly when two structures are
in front and are neither too long nor, the second one, too short (`Bounded`).
-/
import NcsExp.Theory.AdStructures
import NcsExp.Theory.Memory

namespace NcsExp.BeaconScan

open NcsExp.Theory

set_option autoImplicit false

/-! ## The handler -/

/-- What the host tells of the packet beside its data. -/
structure RecvInfo where
  addrType : UInt8
  addr : List UInt8
  rssi : Int8

/-- The lines that are written to the UART, without their fixed texts. -/
inductive Line
  | scannedTestBeaconCount (count : UInt8)
  | advDataLen (len : Nat)
  | recvAdrsType (type : UInt8)
  | recvAdrs (val : List UInt8)
  | rssi (rssi : Int8)
  | recvData0Type (type : UInt8)
  | recvData0Len (len : UInt8)
  | recvData0Data (text : List UInt8)
  | recvData1Type (type : UInt8)
  | recvData1Len (len : UInt8)
  | recvData1Id (high low : UInt8)
  | recvData1Data (text : List UInt8)
  deriving DecidableEq

/-- A byte of `adv_data->data` that is read, or `count` bytes that `memcpy` is to copy from `first`
on to `temp1`. -/
inductive Access
  | read (i : Nat)
  | memcpy (first : Nat) (count : Int)
  deriving DecidableEq

/-- `sizeof(temp1)`. -/
def temp1Size : Nat := 100

/-- `%s` of `temp1`, which was all zeros, after a `memcpy`. -/
def temp1Text (data : Memory UInt8) (first : Nat) (count : Int) : List UInt8 :=
  (data.load first count.toNat).takeWhile (· ≠ 0)

/-- `data_offset`. -/
def dataOffset (data : Memory UInt8) : UInt8 := data 0 + 1

/-- How many bytes the two calls of `memcpy` are to copy. -/
def data0Count (data : Memory UInt8) : Int := (data 0).toNat - 1
def data1Count (data : Memory UInt8) : Int := (data (dataOffset data).toNat).toNat - 3

/-- What `scan_filter_match` reads of `adv_data`, in order. -/
def accesses (data : Memory UInt8) : List Access :=
  let offset := (dataOffset data).toNat
  [.read 1, .read 0, .read 0, .memcpy 2 (data0Count data), .read 0,
    .read (offset + 1), .read offset, .read (offset + 3), .read (offset + 2),
    .read offset, .memcpy (offset + 4) (data1Count data)]

/-- What `scan_filter_match` writes to the UART, and `count` after it. -/
def scanFilterMatch (count : UInt8) (info : RecvInfo) (data : Memory UInt8) (len : Nat) :
    List Line × UInt8 :=
  let offset := (dataOffset data).toNat
  ([.scannedTestBeaconCount count, .advDataLen len, .recvAdrsType info.addrType,
    .recvAdrs info.addr, .rssi info.rssi,
    .recvData0Type (data 1), .recvData0Len (data 0),
    .recvData0Data (temp1Text data 2 (data0Count data)),
    .recvData1Type (data (offset + 1)), .recvData1Len (data offset),
    .recvData1Id (data (offset + 3)) (data (offset + 2)),
    .recvData1Data (temp1Text data (offset + 4) (data1Count data))], count + 1)

/-! ## Which advertisements are handled, and which safely -/

/-- `dev_name`. -/
def devName : List UInt8 := [84, 101, 115, 116, 32, 98, 101, 97, 99, 111, 110]

def BT_DATA_NAME_COMPLETE : UInt8 := 9

theorem devName_short : devName.length < 255 := by decide

/-- The complete name "Test beacon". -/
def nameComplete : AdStructure := ⟨BT_DATA_NAME_COMPLETE, devName, devName_short⟩

/-- The advertisement has the name. -/
def Named (payload : List UInt8) : Prop := nameComplete ∈ AdStructure.parse payload

/-- The memory that `adv_data->data` points to. -/
def advData (payload : List UInt8) (behind : Memory UInt8) : Memory UInt8 := behind.store 0 payload

def Access.Inside (len : Nat) : Access → Prop
  | .read i => i < len
  | .memcpy first count => 0 ≤ count ∧ first + count ≤ len ∧ count ≤ temp1Size

/-- Every access is inside the data and `temp1`, and `data_offset` does not wrap. -/
structure Safe (payload : List UInt8) (behind : Memory UInt8) : Prop where
  inside : ∀ a ∈ accesses (advData payload behind), a.Inside payload.length
  offset : (dataOffset (advData payload behind)).toNat = (advData payload behind 0).toNat + 1

/-- The first length byte is at most 101, the second is from 3 to 103, and both structures are
inside the data. -/
def Bounded (payload : List UInt8) : Prop :=
  ∃ first second : UInt8, payload[0]? = some first ∧ payload[first.toNat + 1]? = some second ∧
    first.toNat ≤ 101 ∧ 3 ≤ second.toNat ∧ second.toNat ≤ 103 ∧
      first.toNat + 1 + (second.toNat + 1) ≤ payload.length

variable {payload : List UInt8} {behind : Memory UInt8}

theorem advData_eq {i : Nat} {b : UInt8} (there : payload[i]? = some b) :
    advData payload behind i = b := by
  rw [advData, Memory.store, if_neg (Nat.not_lt_zero i), Nat.sub_zero, there]
  rfl

/-- In an advertisement with a name the first structure is inside the data. -/
theorem Named.first (named : Named payload) : ∃ first : UInt8, payload[0]? = some first ∧
    1 ≤ first.toNat ∧ first.toNat + 1 ≤ payload.length := by
  obtain ⟨s, rest, rfl⟩ := AdStructure.exists_encode_of_mem named
  refine ⟨_, rfl, ?_⟩
  rw [s.toNat_length_byte, List.length_append, s.length_encode]
  omega

/-- The accesses, one after the other. -/
theorem inside_iff (data : Memory UInt8) (len : Nat) :
    (∀ a ∈ accesses data, a.Inside len) ↔
      1 < len ∧ (Access.memcpy 2 (data0Count data)).Inside len ∧
        (dataOffset data).toNat + 3 < len ∧
          (Access.memcpy ((dataOffset data).toNat + 4) (data1Count data)).Inside len := by
  have reads (i : Nat) : (Access.read i).Inside len ↔ i < len := Iff.rfl
  simp only [accesses, List.forall_mem_cons, reads]
  generalize (Access.memcpy 2 (data0Count data)).Inside len = copies
  generalize (Access.memcpy ((dataOffset data).toNat + 4) (data1Count data)).Inside len = copies'
  generalize (dataOffset data).toNat = offset
  constructor
  · rintro ⟨one, -, -, first, -, -, -, last, -, -, second, -⟩
    exact ⟨one, first, last, second⟩
  · rintro ⟨one, first, last, second⟩
    refine ⟨one, ?_, ?_, first, ?_, ?_, ?_, last, ?_, ?_, second, by simp⟩ <;> omega

/-- **The bounds**, for an advertisement with the name and whatever is behind it in memory. -/
theorem scan_bounds_iff (payload : List UInt8) (behind : Memory UInt8) (named : Named payload) :
    Safe payload behind ↔ Bounded payload := by
  obtain ⟨first, there, some_, whole⟩ := named.first
  have zero : advData payload behind 0 = first := advData_eq there
  have offset : (dataOffset (advData payload behind)).toNat = (first.toNat + 1) % 2 ^ 8 := by
    rw [dataOffset, zero, UInt8.toNat_add]
    rfl
  have copies : data0Count (advData payload behind) = first.toNat - 1 := by rw [data0Count, zero]
  constructor
  · rintro ⟨inside, wraps⟩
    obtain ⟨-, ⟨-, -, small⟩, last, ⟨positive, fits, small'⟩⟩ := (inside_iff _ _).mp inside
    rw [zero] at wraps
    have below : first.toNat + 1 < payload.length := by omega
    have second : payload[first.toNat + 1]? = some payload[first.toNat + 1] :=
      List.getElem?_eq_getElem below
    have counts : data1Count (advData payload behind) =
        (payload[first.toNat + 1]).toNat - 3 := by
      rw [data1Count, wraps, advData_eq second]
    rw [copies, temp1Size] at small
    rw [counts] at positive small' fits
    rw [temp1Size] at small'
    refine ⟨first, _, there, second, ?_⟩
    omega
  · rintro ⟨first', second, there', next, small, least, most, fits⟩
    cases there.symm.trans there'
    have wraps : (dataOffset (advData payload behind)).toNat = first.toNat + 1 := by
      rw [offset]
      exact Nat.mod_eq_of_lt (by omega)
    have counts : data1Count (advData payload behind) = second.toNat - 3 := by
      rw [data1Count, wraps, advData_eq next]
    have first_ :
        (Access.memcpy 2 (data0Count (advData payload behind))).Inside payload.length := by
      rw [copies, Access.Inside, temp1Size]
      omega
    have second_ : (Access.memcpy ((dataOffset (advData payload behind)).toNat + 4)
        (data1Count (advData payload behind))).Inside payload.length := by
      rw [wraps, counts, Access.Inside, temp1Size]
      omega
    refine ⟨(inside_iff _ _).mpr ⟨by omega, first_, ?_, second_⟩, ?_⟩
    · rw [wraps]
      omega
    · rw [wraps, zero]

/-- The name, and manufacturer data with one byte. -/
theorem scan_bounds_iff_two :
    Safe (nameComplete.encode ++ [4, 255, 89, 0, 7]) (fun _ => 0) ↔
      Bounded (nameComplete.encode ++ [4, 255, 89, 0, 7]) :=
  scan_bounds_iff _ _ (AdStructure.mem_parse_iff.mpr ⟨[], [4, 255, 89, 0, 7], rfl⟩)

/-- The name alone. -/
theorem name_alone_is_unsafe :
    ¬ ∀ (payload : List UInt8) (behind : Memory UInt8), Named payload → Safe payload behind := by
  intro safe
  have named : Named nameComplete.encode :=
    AdStructure.mem_parse_iff.mpr ⟨[], [], (List.append_nil _).symm⟩
  have inside : 14 < nameComplete.encode.length :=
    (safe _ (fun _ => 0) named).inside (.read 14) (by decide)
  exact absurd inside (by decide)

/-! ## Two structures -/

/-- Where both structures are there, they are what is written. -/
theorem scanFilterMatch_structures (count : UInt8) (info : RecvInfo) (behind : Memory UInt8)
    (len : Nat) (s t : AdStructure) (high low : UInt8) (text rest : List UInt8)
    (company : t.data = low :: high :: text) (short : s.data.length < 254) :
    (scanFilterMatch count info (advData (s.encode ++ (t.encode ++ rest)) behind) len).1.drop 5 =
      [.recvData0Type s.type, .recvData0Len (.ofNat (s.data.length + 1)),
        .recvData0Data (s.data.takeWhile (· ≠ 0)), .recvData1Type t.type,
        .recvData1Len (.ofNat (t.data.length + 1)), .recvData1Id high low,
        .recvData1Data (text.takeWhile (· ≠ 0))] := by
  have zero : advData (s.encode ++ (t.encode ++ rest)) behind 0 = .ofNat (s.data.length + 1) :=
    advData_eq rfl
  have one : advData (s.encode ++ (t.encode ++ rest)) behind 1 = s.type := advData_eq rfl
  have len0 := s.toNat_length_byte
  have len1 := t.toNat_length_byte
  have offset : (dataOffset (advData (s.encode ++ (t.encode ++ rest)) behind)).toNat =
      s.data.length + 2 := by
    rw [dataOffset, zero, UInt8.toNat_add, len0]
    exact Nat.mod_eq_of_lt (by have one : (1 : UInt8).toNat = 1 := rfl; omega)
  have encoded : t.encode = [.ofNat (t.data.length + 1), t.type, low, high] ++ text :=
    congrArg (fun data => UInt8.ofNat (t.data.length + 1) :: t.type :: data) company
  have next {i : Nat} {b : UInt8} (there : t.encode[i]? = some b) :
      advData (s.encode ++ (t.encode ++ rest)) behind (s.data.length + 2 + i) = b := by
    apply advData_eq
    rw [← s.length_encode, List.getElem?_append_right (Nat.le_add_right ..),
      Nat.add_sub_cancel_left]
    exact List.getElem?_append_left (List.getElem?_eq_some_iff.mp there).1 ▸ there
  have first : (advData (s.encode ++ (t.encode ++ rest)) behind).load 2 s.data.length = s.data :=
    Memory.load_store_part behind 0 [.ofNat (s.data.length + 1), s.type] s.data (t.encode ++ rest)
  have second : (advData (s.encode ++ (t.encode ++ rest)) behind).load (s.data.length + 2 + 4)
      text.length = text := by
    have part := Memory.load_store_part behind 0
      (s.encode ++ [.ofNat (t.data.length + 1), t.type, low, high]) text rest
    have same : s.encode ++ [.ofNat (t.data.length + 1), t.type, low, high] ++ (text ++ rest) =
        s.encode ++ (t.encode ++ rest) := by
      rw [encoded, List.append_assoc, List.append_assoc]
    rw [same, Nat.zero_add, List.length_append, s.length_encode] at part
    exact part
  have low_ := next (i := 2) (b := low) (by rw [encoded]; rfl)
  have high_ := next (i := 3) (b := high) (by rw [encoded]; rfl)
  generalize advData (s.encode ++ (t.encode ++ rest)) behind = data at *
  have count0 : (data0Count data).toNat = s.data.length := by
    rw [data0Count, zero, len0]
    omega
  have count1 : (data1Count data).toNat = text.length := by
    rw [data1Count, offset, next (i := 0) rfl, len1, company, List.length_cons, List.length_cons]
    omega
  simp only [scanFilterMatch, temp1Text, offset, count0, count1, first, second, zero, one,
    next (i := 0) rfl, next (i := 1) rfl, low_, high_, List.drop]

end NcsExp.BeaconScan
