/-
# NcsExp.Peers.Sync -- the two ends of a measurement

`main.c` of the distance measurement: every device advertises, with its access address in the scan
response, and scans.  Who hears a scan response asks for a measurement as initiator, with the
access address that it heard; who is scanned asks for one as reflector, with its own, if the
scanner is a peer.

`step` is any number of devices.  A scan response may be received by any device, any time after it
was sent, more than once or never.  Whatever else is on the air comes from addresses that are not
those of the devices.  What the Bluetooth calls return, and what passes the filter of the scanner,
is the environment's choice.
-/
import NcsExp.Peers.Structure
import NcsExp.Theory.AdStructures
import NcsExp.Theory.History
import NcsExp.Theory.LittleEndian

namespace NcsExp.Peers.Sync

open NcsExp.Theory

set_option autoImplicit false

universe u

/-! ## Data -/

def COMPANY_CODE : Nat := 0x0059
def SUPPORT_DM_CODE : Nat := 0xFF55AA5A
def EFAULT : Int := 14

def BT_DATA_UUID128_ALL : UInt8 := 0x07
def BT_DATA_MANUFACTURER_DATA : UInt8 := 0xff

/-- `enum dm_dev_role`. -/
inductive Role
  | initiator
  | reflector
  deriving DecidableEq

/-- `struct dm_request`. -/
structure DmRequest where
  btAddr : BtAddr
  role : Role
  rangingMode : RangingMode
  accessAddress : UInt32
  startDelayUs : Nat
  deriving DecidableEq

/-- `struct adv_mfg_data`. -/
structure AdvMfgData where
  companyCode : List UInt8
  supportDmCode : List UInt8
  accessAddress : List UInt8
  length : companyCode.length = 2 ∧ supportDmCode.length = 4 ∧ accessAddress.length = 4

/-- As the program starts. -/
def AdvMfgData.zero : AdvMfgData := ⟨[0, 0], [0, 0, 0, 0], [0, 0, 0, 0], rfl, rfl, rfl⟩

def AdvMfgData.bytes (d : AdvMfgData) : List UInt8 :=
  d.companyCode ++ d.supportDmCode ++ d.accessAddress

/-- The devices. -/
structure Network (ι : Type u) where
  addr : ι → BtAddr
  /-- `BT_UUID_DDFS_VAL`. -/
  ddfs : List UInt8
  short : ddfs.length = 16
  /-- It is the address of one of the devices. -/
  known : BtAddr → Bool
  known_addr : ∀ i, known (addr i) = true

structure Device where
  booted : Bool
  peers : Machine
  rangingMode : RangingMode
  accessAddress : UInt32
  mfgData : AdvMfgData
  /-- `adv` is not NULL. -/
  adv : Bool
  /-- The scan response of the advertising set. -/
  scanResponse : Option (List UInt8)
  advertising : Bool
  scanning : Bool
  requests : List DmRequest

/-! ## The access address -/

/-- `addr.a.val[i]`. -/
def addrVal (addr : BtAddr) (i : Nat) : UInt32 := .ofNat (addr.a.extractLsb' (8 * i) 8).toNat

/-- The access address of the device with this address. -/
def accessAddressOf (addr : BtAddr) : UInt32 :=
  addrVal addr 0 ||| addrVal addr 1 <<< 8 ||| addrVal addr 2 <<< 16 ||| addrVal addr 3 <<< 24

/-- `peer_access_address_prepare`. -/
def peerAccessAddressPrepare (addr : BtAddr) (d : Device) : Device × Int :=
  let d := { d with accessAddress := accessAddressOf addr }
  if d.accessAddress = 0 then (d, -EFAULT) else (d, 0)

/-! ## What is on the air -/

/-- `mfg_data` as `bt_sync_init` fills it in. -/
def advMfgData (accessAddress : UInt32) : AdvMfgData where
  companyCode := LittleEndian.bytes 2 COMPANY_CODE
  supportDmCode := LittleEndian.bytes 4 SUPPORT_DM_CODE
  accessAddress := LittleEndian.bytes 4 accessAddress.toNat
  length := by simp

theorem AdvMfgData.length_bytes (m : AdvMfgData) : m.bytes.length = 10 := by
  have length := m.length
  simp [AdvMfgData.bytes, length]

/-- The first entry of `sd`. -/
def manufacturerData (m : AdvMfgData) : AdStructure where
  type := BT_DATA_MANUFACTURER_DATA
  data := m.bytes
  short := by rw [m.length_bytes]; decide

variable {ι : Type u} (net : Network ι)

/-- The second entry of `sd`. -/
def Network.uuid : AdStructure where
  type := BT_DATA_UUID128_ALL
  data := net.ddfs
  short := by rw [net.short]; decide

/-- `sd`, as it is sent. -/
def Network.sd (m : AdvMfgData) : List UInt8 :=
  AdStructure.encodeAll [manufacturerData m, net.uuid]

/-- What the calls of `adv_start` return. -/
structure AdvCalls where
  stop : Int
  delete : Int
  create : Int
  setData : Int
  start : Int
  deriving DecidableEq

/-- `adv_start`. -/
def advStart (c : AdvCalls) (d : Device) : Device × Int :=
  if d.adv ∧ c.stop ≠ 0 then (d, c.stop)
  else
    let d := { d with advertising := false }
    if d.adv ∧ c.delete ≠ 0 then (d, c.delete)
    else
      let d := { d with scanResponse := none }
      if c.create ≠ 0 then (d, c.create)
      else
        let d := { d with adv := true }
        if c.setData ≠ 0 then (d, c.setData)
        else
          let d := { d with scanResponse := some (net.sd d.mfgData) }
          if c.start ≠ 0 then (d, c.start)
          else ({ d with advertising := true }, 0)

/-- What the calls of `scan_start` return. -/
structure ScanCalls where
  filterAdd : Int
  filterEnable : Int
  start : Int
  deriving DecidableEq

/-- `scan_start`. -/
def scanStart (c : ScanCalls) (d : Device) : Device × Int :=
  if c.filterAdd ≠ 0 then (d, c.filterAdd)
  else if c.filterEnable ≠ 0 then (d, c.filterEnable)
  else if c.start ≠ 0 then (d, c.start)
  else ({ d with scanning := true }, 0)

/-- `bt_sync_init`. -/
def btSyncInit (addr : BtAddr) (adv : AdvCalls) (scan : ScanCalls) (d : Device) : Device × Int :=
  let d := (peerAccessAddressPrepare addr { d with booted := true }).1
  let d := { d with mfgData := advMfgData d.accessAddress }
  let (d, err) := advStart net adv d
  if err ≠ 0 then (d, err) else scanStart scan d

/-! ## The requests -/

def Device.request (d : Device) (addr : BtAddr) (role : Role) (accessAddress : UInt32) : Device :=
  { d with requests := d.requests ++ [⟨addr, role, d.rangingMode, accessAddress, 0⟩] }

/-- `data_cb`, and whether `bt_data_parse` goes on. -/
def dataCb (addr : BtAddr) (d : Device) (data : AdStructure) : Device × Bool :=
  if data.type = BT_DATA_MANUFACTURER_DATA then
    if data.data.length = 10 then
      (d.request addr .initiator (.ofNat (LittleEndian.value (data.data.drop 6))), false)
    else (d, false)
  else (d, true)

/-- `bt_data_parse` with `data_cb`, over the structures from here on. -/
def btDataParse (addr : BtAddr) (d : Device) : List AdStructure → Device
  | [] => d
  | data :: rest =>
      match dataCb addr d data with
      | (d, false) => d
      | (d, true) => btDataParse addr d rest

/-- `scan_filter_match`; `alloc` is what `k_heap_alloc` returns. -/
def scanFilterMatch (addr : BtAddr) (payload : List UInt8) (alloc : Option (Ptr × DmResult))
    (d : Device) : Option Device :=
  (Peers.step d.peers (.add addr alloc)).map fun peers =>
    btDataParse addr { d with peers := peers } (AdStructure.parse payload)

/-- `adv_scanned_cb`. -/
def advScannedCb (addr : BtAddr) (d : Device) : Device :=
  if peerSupportedTest d.peers addr then d.request addr .reflector d.accessAddress else d

/-! ## Steps -/

structure State (ι : Type u) where
  device : ι → Device
  sent : List (BtAddr × List UInt8)

inductive Act (ι : Type u)
  /-- `bt_sync_init` -/
  | boot (i : ι) (adv : AdvCalls) (scan : ScanCalls)
  /-- `adv_work_handle`, behind `connected` and `disconnected` -/
  | connection (i : ι) (adv : AdvCalls)
  /-- `peer_ranging_mode_set` -/
  | rangingMode (i : ι) (mode : RangingMode)
  /-- `peer_thread` -/
  | result (i : ι) (r : DmResult)
  /-- `timeout_handler` -/
  | tick (i : ι)
  /-- the controller sends a scan response -/
  | respond (i : ι)
  /-- `scan_filter_match` -/
  | receive (i : ι) (addr : BtAddr) (payload : List UInt8) (alloc : Option (Ptr × DmResult))
  /-- `adv_scanned_cb` -/
  | scanned (i : ι) (addr : BtAddr)

section

variable [DecidableEq ι]

def State.set (s : State ι) (i : ι) (d : Device) : State ι :=
  { s with device := fun j => if j = i then d else s.device j }

def step (s : State ι) : Act ι → Option (State ι)
  | .boot i adv scan =>
      if (s.device i).booted then none
      else some (s.set i (btSyncInit net (net.addr i) adv scan (s.device i)).1)
  | .connection i adv =>
      if (s.device i).booted then some (s.set i (advStart net adv (s.device i)).1) else none
  | .rangingMode i mode => some (s.set i { s.device i with rangingMode := mode })
  | .result i r => (Peers.step (s.device i).peers (.result r)).map fun peers =>
      s.set i { s.device i with peers := peers }
  | .tick i => (Peers.step (s.device i).peers .tick).map fun peers =>
      s.set i { s.device i with peers := peers }
  | .respond i =>
      if (s.device i).advertising then
        (s.device i).scanResponse.map fun payload =>
          { s with sent := s.sent ++ [(net.addr i, payload)] }
      else none
  | .receive i addr payload alloc =>
      if (s.device i).scanning ∧ (net.known addr → (addr, payload) ∈ s.sent) then
        (scanFilterMatch addr payload alloc (s.device i)).map (s.set i)
      else none
  | .scanned i addr =>
      if (s.device i).advertising then some (s.set i (advScannedCb addr (s.device i))) else none

end

/-- Nothing has been started. -/
structure DeviceInit (d : Device) : Prop where
  booted : d.booted = false
  peers : Peers.Init d.peers
  scanResponse : d.scanResponse = none
  advertising : d.advertising = false
  requests : d.requests = []

structure Init (s : State ι) : Prop where
  device : ∀ i, DeviceInit (s.device i)
  sent : s.sent = []

/-! ## What every run keeps -/

/-- A measurement with this peer has been asked for as initiator. -/
def Asked (past : List DmRequest) (peer : BtAddr) : Prop :=
  ∃ q ∈ past, q.role = .initiator ∧ q.btAddr = peer

/-- A request of the device `i`, after the requests `past`. -/
def RequestOk (i : ι) (past : List DmRequest) (r : DmRequest) : Prop :=
  match r.role with
  | .initiator => net.known r.btAddr = true → r.accessAddress = accessAddressOf r.btAddr
  | .reflector => r.accessAddress = accessAddressOf (net.addr i) ∧
      (net.known r.btAddr = true → Asked past r.btAddr)

/-- The scan response of the device with this address. -/
def Network.response (addr : BtAddr) : List UInt8 := net.sd (advMfgData (accessAddressOf addr))

structure DeviceOk (i : ι) (d : Device) : Prop where
  prepared : d.booted = true →
    d.accessAddress = accessAddressOf (net.addr i) ∧ d.mfgData = advMfgData d.accessAddress
  advertises : d.advertising = true → d.booted = true
  response : ∀ payload, d.scanResponse = some payload → payload = net.response (net.addr i)
  peers : ∃ nodes, Structured d.peers nodes ∧
    ∀ n ∈ nodes, net.known (d.peers.entry n).btAddr = true →
      Asked d.requests (d.peers.entry n).btAddr
  requests : Always (RequestOk net i) d.requests

structure Inv (s : State ι) : Prop where
  device : ∀ i, DeviceOk net i (s.device i)
  sent : ∀ addr payload, (addr, payload) ∈ s.sent → payload = net.response addr

/-! ## The peers -/

/-- A step of the peers brings in at most the address that is added. -/
theorem peers_step {m m' : Machine} {nodes : List Ptr} {a : Peers.Act} (s : Structured m nodes)
    (taken : Peers.step m a = some m') :
    ∃ nodes', Structured m' nodes' ∧ ∀ n ∈ nodes',
      (∃ n₀ ∈ nodes, (m'.entry n).btAddr = (m.entry n₀).btAddr) ∨
        ∃ alloc, a = .add (m'.entry n).btAddr alloc := by
  cases a with
  | add peer alloc =>
      rcases add_cases taken with rfl | ⟨node, left, new, free, rfl⟩
      · exact ⟨nodes, s, fun n member => .inl ⟨n, member, rfl⟩⟩
      · refine ⟨nodes ++ [node], newEntry_structured s new free, fun n member => ?_⟩
        have own : (m.newEntry node peer left).entry node = ⟨peer, left, timeoutInitMs, none⟩ :=
          if_pos rfl
        rcases List.mem_append.mp member with before | now
        · have other : n ≠ node := fun same => free (s.live node (same ▸ before))
          exact .inl ⟨n, before, congrArg PeerEntry.btAddr (if_neg other)⟩
        · obtain rfl := List.mem_singleton.mp now
          exact .inr ⟨alloc, by rw [own]⟩
  | result r =>
      simp only [Peers.step, Option.ite_none_right_eq_some, Option.some.injEq] at taken
      obtain ⟨-, rfl⟩ := taken
      refine ⟨nodes, peerThread_structured s r, fun n member => .inl ⟨n, member, ?_⟩⟩
      cases found : peerFind m r.btAddr with
      | none => rw [peerThread_unknown found]
      | some peer =>
          obtain ⟨t, same, after⟩ := peerThread_found found
          have entry : (t.note (.notified peer)).entry = (m.choose peer r).entry := same.entry
          rw [after, entry]
          by_cases own : n = peer
          · subst own
            show ((m.store n r).entry n).btAddr = (m.entry n).btAddr
            rw [store_own]
          · exact congrArg PeerEntry.btAddr (if_neg own)
  | tick =>
      cases taken
      have ticked := timeoutHandler_ticked s
      have structured := ticked.structured
      rw [List.append_nil] at structured
      refine ⟨_, structured, fun n member => .inl ⟨n, ?_, ?_⟩⟩
      · exact (List.mem_filter.mp ((survivors_sublist _ nodes).mem member)).1
      · rw [ticked.aged n member, PeerEntry.aged_btAddr]

/-! ## What each function keeps -/

variable {net} {i : ι} {d : Device}

theorem Asked.append {past : List DmRequest} {peer : BtAddr} (asked : Asked past peer)
    (new : List DmRequest) : Asked (past ++ new) peer := by
  obtain ⟨q, member, role, addr⟩ := asked
  exact ⟨q, List.mem_append_left new member, role, addr⟩

theorem advStart_ok (ok : DeviceOk net i d) (booted : d.booted = true) (c : AdvCalls) :
    DeviceOk net i (advStart net c d).1 := by
  obtain ⟨address, data⟩ := ok.prepared booted
  have filled : net.sd d.mfgData = net.response (net.addr i) := by
    rw [data, address, Network.response]
  have none_ : ∀ payload, (none : Option (List UInt8)) = some payload →
      payload = net.response (net.addr i) := by
    intro payload response
    cases response
  have some_ : ∀ payload, some (net.sd d.mfgData) = some payload →
      payload = net.response (net.addr i) := by
    rintro payload ⟨⟩
    exact filled
  simp only [advStart]
  split
  · exact ok
  split
  · exact { ok with advertises := fun _ => booted }
  split
  · exact { ok with advertises := fun _ => booted, response := none_ }
  split
  · exact { ok with advertises := fun _ => booted, response := none_ }
  split
  · exact { ok with advertises := fun _ => booted, response := some_ }
  · exact { ok with advertises := fun _ => booted, response := some_ }

theorem scanStart_ok (ok : DeviceOk net i d) (c : ScanCalls) :
    DeviceOk net i (scanStart c d).1 := by
  unfold scanStart
  split
  · exact ok
  split
  · exact ok
  split
  · exact ok
  · exact { ok with }

theorem peerAccessAddressPrepare_fst (addr : BtAddr) (d : Device) :
    (peerAccessAddressPrepare addr d).1 = { d with accessAddress := accessAddressOf addr } := by
  simp only [peerAccessAddressPrepare]
  split <;> rfl

theorem btSyncInit_ok (ok : DeviceOk net i d) (adv : AdvCalls) (scan : ScanCalls) :
    DeviceOk net i (btSyncInit net (net.addr i) adv scan d).1 := by
  have prepared : DeviceOk net i { d with
      booted := true
      accessAddress := accessAddressOf (net.addr i)
      mfgData := advMfgData (accessAddressOf (net.addr i)) } :=
    { ok with prepared := fun _ => ⟨rfl, rfl⟩, advertises := fun _ => rfl }
  have started := advStart_ok prepared rfl adv
  simp only [btSyncInit, peerAccessAddressPrepare_fst]
  split
  · exact started
  · exact scanStart_ok started scan

/-- What becomes of a peer that is known is no new one. -/
theorem DeviceOk.peers_kept (ok : DeviceOk net i d) {a : Peers.Act} {peers : Machine}
    (stepped : Peers.step d.peers a = some peers) (none_ : ∀ addr alloc, a ≠ .add addr alloc) :
    DeviceOk net i { d with peers := peers } := by
  obtain ⟨nodes, structured, asked⟩ := ok.peers
  obtain ⟨nodes', structured', origin⟩ := peers_step structured stepped
  refine { ok with peers := ⟨nodes', structured', fun n member isKnown => ?_⟩ }
  rcases origin n member with ⟨n₀, before, same⟩ | ⟨alloc, same⟩
  · rw [same] at isKnown ⊢
    exact asked n₀ before isKnown
  · exact absurd same (none_ _ _)

/-- What is heard in the scan response of a device. -/
theorem btDataParse_response (addr : BtAddr) (d : Device) :
    btDataParse addr d (AdStructure.parse (net.response addr)) =
      d.request addr .initiator (accessAddressOf addr) := by
  have structures : AdStructure.parse (net.response addr) =
      [manufacturerData (advMfgData (accessAddressOf addr)), net.uuid] := by
    have parsed := AdStructure.parse_encodeAll_append
      [manufacturerData (advMfgData (accessAddressOf addr)), net.uuid] []
    have none_ : AdStructure.parse [] = [] := by simp [AdStructure.parse]
    rwa [List.append_nil, none_, List.append_nil] at parsed
  have last : (advMfgData (accessAddressOf addr)).bytes.drop 6 =
      LittleEndian.bytes 4 (accessAddressOf addr).toNat :=
    List.drop_left' (by simp [advMfgData])
  have small : (accessAddressOf addr).toNat < 256 ^ 4 := (accessAddressOf addr).toNat_lt
  have heard : dataCb addr d (manufacturerData (advMfgData (accessAddressOf addr))) =
      (d.request addr .initiator (accessAddressOf addr), false) := by
    have type : (manufacturerData (advMfgData (accessAddressOf addr))).type =
        BT_DATA_MANUFACTURER_DATA := rfl
    have data : (manufacturerData (advMfgData (accessAddressOf addr))).data =
        (advMfgData (accessAddressOf addr)).bytes := rfl
    rw [dataCb, if_pos type, data, if_pos (AdvMfgData.length_bytes _), last,
      LittleEndian.value_bytes small, UInt32.ofNat_toNat]
  rw [structures, btDataParse, heard]

/-- What is heard leads to one request at most, as initiator. -/
theorem btDataParse_cases (addr : BtAddr) (d : Device) (structures : List AdStructure) :
    btDataParse addr d structures = d ∨ ∃ accessAddress,
      btDataParse addr d structures = d.request addr .initiator accessAddress := by
  induction structures with
  | nil => exact .inl rfl
  | cons data rest ih =>
      rw [btDataParse, dataCb]
      by_cases manufacturer : data.type = BT_DATA_MANUFACTURER_DATA
      · rw [if_pos manufacturer]
        by_cases whole : data.data.length = 10
        · rw [if_pos whole]
          exact .inr ⟨_, rfl⟩
        · rw [if_neg whole]
          exact .inl rfl
      · rw [if_neg manufacturer]
        exact ih

/-- One request more. -/
theorem DeviceOk.request (ok : DeviceOk net i d) {addr : BtAddr} {role : Role} {aa : UInt32}
    (fine : RequestOk net i d.requests ⟨addr, role, d.rangingMode, aa, 0⟩) :
    DeviceOk net i (d.request addr role aa) := by
  obtain ⟨nodes, structured, asked⟩ := ok.peers
  exact { ok with
    peers := ⟨nodes, structured, fun n member known => (asked n member known).append _⟩
    requests := always_snoc.mpr ⟨ok.requests, fine⟩ }

theorem advScannedCb_ok (ok : DeviceOk net i d) (booted : d.booted = true) (addr : BtAddr) :
    DeviceOk net i (advScannedCb addr d) := by
  unfold advScannedCb
  split
  · rename_i supported
    refine ok.request ⟨(ok.prepared booted).1, fun known => ?_⟩
    obtain ⟨nodes, structured, asked⟩ := ok.peers
    rw [peerSupportedTest, structured.nodes_eq, List.any_eq_true] at supported
    obtain ⟨n, member, same⟩ := supported
    have isPeer : (d.peers.entry n).btAddr = addr := beq_iff_eq.mp same
    exact isPeer ▸ asked n member (isPeer ▸ known)
  · exact ok

theorem scanFilterMatch_ok (ok : DeviceOk net i d) {addr : BtAddr} {payload : List UInt8}
    (heard : net.known addr = true → payload = net.response addr)
    {alloc : Option (Ptr × DmResult)} {d' : Device}
    (taken : scanFilterMatch addr payload alloc d = some d') : DeviceOk net i d' := by
  obtain ⟨peers, added, rfl⟩ := Option.map_eq_some_iff.mp taken
  obtain ⟨nodes, structured, asked⟩ := ok.peers
  obtain ⟨nodes', structured', origin⟩ := peers_step structured added
  by_cases known : net.known addr = true
  · -- the new peer is asked for
    rw [heard known, btDataParse_response]
    have request : RequestOk net i d.requests
        ⟨addr, .initiator, d.rangingMode, accessAddressOf addr, 0⟩ := fun _ => rfl
    refine { ok with
      peers := ⟨nodes', structured', fun n member isKnown => ?_⟩
      requests := always_snoc.mpr ⟨ok.requests, request⟩ }
    rcases origin n member with ⟨n₀, before, same⟩ | ⟨_, same⟩
    · have known₀ : net.known (peers.entry n).btAddr = true := isKnown
      rw [same] at known₀
      show Asked (d.requests ++ _) (peers.entry n).btAddr
      rw [same]
      exact (asked n₀ before known₀).append _
    · injection same with isPeer
      exact ⟨_, List.mem_append_right _ List.mem_cons_self, rfl, isPeer⟩
  · have added : DeviceOk net i { d with peers := peers } := by
      refine { ok with peers := ⟨nodes', structured', fun n member isKnown => ?_⟩ }
      rcases origin n member with ⟨n₀, before, same⟩ | ⟨_, same⟩
      · rw [same] at isKnown ⊢
        exact asked n₀ before isKnown
      · injection same with isPeer
        exact absurd (isPeer ▸ isKnown) known
    rcases btDataParse_cases addr { d with peers := peers } (AdStructure.parse payload)
      with same | ⟨aa, same⟩
    · rwa [same]
    · rw [same]
      exact added.request fun isKnown => absurd isKnown known

/-! ## Every run -/

theorem init_inv {s : State ι} (init : Init s) : Inv net s := by
  refine ⟨fun i => ?_, ?_⟩
  · have off := init.device i
    refine ⟨?_, ?_, ?_, ⟨[], init_structured off.peers, ?_⟩, ?_⟩
    · simp [off.booted]
    · simp [off.advertising]
    · simp [off.scanResponse]
    · simp
    · rw [off.requests]
      exact always_nil
  · simp [init.sent]

section

variable [DecidableEq ι]

theorem Inv.set {s : State ι} (inv : Inv net s) {i : ι} {d : Device} (ok : DeviceOk net i d) :
    Inv net (s.set i d) := by
  refine ⟨fun j => ?_, inv.sent⟩
  by_cases own : j = i
  · subst own
    simpa only [State.set, if_pos] using ok
  · simpa only [State.set, if_neg own] using inv.device j

theorem step_inv {s s' : State ι} {a : Act ι} (inv : Inv net s) (taken : step net s a = some s') :
    Inv net s' := by
  cases a with
  | boot i adv scan =>
      simp only [step, Option.ite_none_left_eq_some] at taken
      obtain ⟨-, same⟩ := taken
      cases same
      exact inv.set (btSyncInit_ok (inv.device i) adv scan)
  | connection i adv =>
      simp only [step, Option.ite_none_right_eq_some] at taken
      obtain ⟨booted, same⟩ := taken
      cases same
      exact inv.set (advStart_ok (inv.device i) booted adv)
  | rangingMode i mode =>
      cases taken
      exact inv.set { inv.device i with }
  | result i r =>
      obtain ⟨peers, stepped, rfl⟩ := Option.map_eq_some_iff.mp taken
      exact inv.set ((inv.device i).peers_kept stepped fun _ _ => nofun)
  | tick i =>
      simp only [step, Option.map_eq_some_iff] at taken
      obtain ⟨peers, stepped, rfl⟩ := taken
      exact inv.set ((inv.device i).peers_kept stepped fun _ _ => nofun)
  | respond i =>
      simp only [step, Option.ite_none_right_eq_some] at taken
      obtain ⟨-, sends⟩ := taken
      obtain ⟨payload, response, rfl⟩ := Option.map_eq_some_iff.mp sends
      refine ⟨inv.device, fun addr p member => ?_⟩
      rcases List.mem_append.mp member with before | now
      · exact inv.sent addr p before
      · obtain ⟨rfl, rfl⟩ := Prod.mk.inj (List.mem_singleton.mp now)
        exact (inv.device i).response p response
  | receive i addr payload alloc =>
      simp only [step, Option.ite_none_right_eq_some] at taken
      obtain ⟨⟨-, heard⟩, receives⟩ := taken
      obtain ⟨d, matched, rfl⟩ := Option.map_eq_some_iff.mp receives
      refine inv.set (scanFilterMatch_ok (inv.device i) (fun known => ?_) matched)
      exact inv.sent addr payload (heard known)
  | scanned i addr =>
      simp only [step, Option.ite_none_right_eq_some] at taken
      obtain ⟨advertising, same⟩ := taken
      cases same
      exact inv.set (advScannedCb_ok (inv.device i) ((inv.device i).advertises advertising) addr)

theorem reachable_inv {s : State ι} (run : Reachable (step net) Init unguarded s) : Inv net s :=
  run.invariant (fun _ init => init_inv init) fun _ _ _ inv _ taken => step_inv inv taken

end

/-- Two devices. -/
def pair : Network Bool where
  addr
    | false => peerA
    | true => peerB
  ddfs := List.replicate 16 0
  short := rfl
  known a := a == peerA || a == peerB
  known_addr := by decide

/-- Neither has been started. -/
def unstarted : State Bool where
  device _ := ⟨false, booted, .mcpd, 0, .zero, false, none, false, false, []⟩
  sent := []

theorem unstarted_init : Init unstarted := ⟨fun _ => ⟨rfl, booted_init, rfl, rfl, rfl⟩, rfl⟩

/-- Each device hears the other one, and is scanned by it. -/
def pairRun : List (Act Bool) :=
  [.boot false ⟨0, 0, 0, 0, 0⟩ ⟨0, 0, 0⟩, .boot true ⟨0, 0, 0, 0, 0⟩ ⟨0, 0, 0⟩, .respond true,
    .respond false,
    .receive false peerB (pair.response peerB) (some (1, ⟨peerA, .rtt, 0, 0⟩)),
    .scanned true peerA,
    .receive true peerA (pair.response peerA) (some (1, ⟨peerA, .rtt, 0, 0⟩)),
    .scanned true peerA]

/-- The requests of both sides. -/
def pairRequests (s : State Bool) : Bool :=
  (s.device false).requests == [⟨peerB, .initiator, .mcpd, 2, 0⟩] &&
    (s.device true).requests ==
      [⟨peerA, .initiator, .mcpd, 1, 0⟩, ⟨peerA, .reflector, .mcpd, 2, 0⟩]

theorem pair_reached :
    ∃ s, Reachable (step pair) Init unguarded s ∧ pairRequests s = true :=
  exists_reachable_of_exec unstarted_init
    (show (exec (step pair) unguarded unstarted pairRun).any _ = true by decide +kernel)

/-- **The two ends agree.**  Whatever the order of the exchanges, and whatever is lost, repeated or
sent by others: an initiator asks for the access address of the device that it measures, a
reflector for its own.  So two requests for one measurement are for the same access address. -/
theorem ends_agree [DecidableEq ι] {s : State ι} (run : Reachable (step net) Init unguarded s)
    {i j : ι} {r q : DmRequest} (asks : r ∈ (s.device i).requests) (initiator : r.role = .initiator)
    (peer : r.btAddr = net.addr j) (reflects : q ∈ (s.device j).requests)
    (reflector : q.role = .reflector) :
    r.accessAddress = q.accessAddress ∧ r.accessAddress = accessAddressOf (net.addr j) := by
  have inv := reachable_inv run
  obtain ⟨past, -, own⟩ := (inv.device i).requests.of_mem asks
  obtain ⟨past', -, other⟩ := (inv.device j).requests.of_mem reflects
  rw [RequestOk, initiator] at own
  rw [RequestOk, reflector] at other
  have heard : r.accessAddress = accessAddressOf (net.addr j) := by
    rw [← peer]
    exact own (peer ▸ net.known_addr j)
  exact ⟨heard.trans other.1.symm, heard⟩

theorem ends_agree_pair :
    ∃ s, pairRequests s = true ∧ ∃ r ∈ (s.device false).requests, ∃ q ∈ (s.device true).requests,
      r.accessAddress = q.accessAddress ∧ r.accessAddress = accessAddressOf (pair.addr true) := by
  obtain ⟨s, run, requests⟩ := pair_reached
  obtain ⟨own, other⟩ := Bool.and_eq_true_iff.mp requests
  have asks := beq_iff_eq.mp own
  have reflects := beq_iff_eq.mp other
  have r : (⟨peerB, .initiator, .mcpd, 2, 0⟩ : DmRequest) ∈ (s.device false).requests := by
    simp [asks]
  have q : (⟨peerA, .reflector, .mcpd, 2, 0⟩ : DmRequest) ∈ (s.device true).requests := by
    simp [reflects]
  have agree := ends_agree (i := false) (j := true) run r rfl rfl q rfl
  exact ⟨s, requests, _, r, _, q, agree⟩

/-- **Nobody reflects for a device that it has not asked for.**  Whenever a device asks for a
measurement with another one of the network as reflector, it has asked for one with it as
initiator before. -/
theorem reflects_after_asking [DecidableEq ι] {s : State ι}
    (run : Reachable (step net) Init unguarded s) (i : ι) :
    Always (fun past r => ∀ j, r.role = .reflector → r.btAddr = net.addr j →
      Asked past (net.addr j)) (s.device i).requests := by
  have requests := ((reachable_inv run).device i).requests
  intro past now future split j reflector peer
  have moment := requests past now future split
  rw [RequestOk, reflector] at moment
  exact peer ▸ moment.2 (peer ▸ net.known_addr j)

theorem reflects_after_asking_pair :
    ∃ s, pairRequests s = true ∧
      Always (fun past r => ∀ j, r.role = .reflector → r.btAddr = pair.addr j →
        Asked past (pair.addr j)) (s.device true).requests := by
  obtain ⟨s, run, requests⟩ := pair_reached
  exact ⟨s, requests, reflects_after_asking run true⟩

end NcsExp.Peers.Sync
