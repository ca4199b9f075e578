/-
# NcsExp.Rpc.Smp -- the SMP bridge

A write of the SMP characteristic goes from the network core to `zephyr_smp_rx_req` on the
application core; a response goes back to `bt_gatt_notify`; and the application core asks
for the MTU.

* `write_ok_iff`: a write is handed on whole or refused, within the buffers, unless it fits
  the decode buffer and not the mcumgr buffer.
* `smp_agrees_iff`: the sizes agree for such a write, with a connection, and for a response
  that is not empty and fits the decode buffer of the network core.
-/
import NcsExp.Rpc.RoundTrip

namespace NcsExp.Rpc

open NcsExp.Theory

set_option autoImplicit false

/-! ## The code -/

/-- A connection; the ATT MTU is at least 23. -/
structure Conn where
  mtu : UInt16
  atLeast : 23 ≤ mtu.toNat

/-- `bt_gatt_get_mtu`. -/
def btGattGetMtu : Option Conn → UInt16
  | none => 0
  | some conn => conn.mtu

/-- With `current_conn`. -/
def Env.withConn (env : Env) (currentConn : Option Conn) : Env :=
  { env with gattMtu := btGattGetMtu currentConn }

/-- What a sender of one byte string sets off on the other core. -/
def setOff (decoder : List UInt8 → List Effect) (buffer : List UInt8) : List Effect :=
  if buffer.length < 1 then [] else decoder (Cbor.encodeBytes buffer)

/-- `rpc_net_bt_smp_receive_cb`, lines 70-93 of `rpc_net_smp_bt.c`. -/
def NetCore.rpcNetBtSmpReceiveCb (b : Beyond) (env : Env) (result : Int32)
    (buffer : List UInt8) : Option Int32 :=
  byteStringSend b (connectedTo (AppCore.rpcAppBtSmpReceiveCb b env)) result (some buffer)

/-- What `smp_bt_chr_write`, lines 98-106, sets off on the application core. -/
def NetCore.smpBtChrWrite (b : Beyond) (env : Env) (buf : List UInt8) : List Effect :=
  setOff (AppCore.rpcAppBtSmpReceiveCb b env) buf

/-- `rpc_app_bt_smp_send`, lines 129-151 of `rpc_app_smp.c`. -/
def AppCore.rpcAppBtSmpSend (b : Beyond) (env : Env) (result : Int32) (buffer : List UInt8) :
    Option Int32 :=
  byteStringSend b (connectedTo (NetCore.rpcNetBtSmpSend b env)) result (some buffer)

/-- What `smp_rpc_tx_pkt` does. -/
inductive TxEffect
  | remote (effect : Effect)
  | mcumgrBufFree
  deriving DecidableEq

/-- `smp_rpc_tx_pkt`, lines 155-162. -/
def AppCore.smpRpcTxPkt (b : Beyond) (env : Env) (result : Int32) (nb : List UInt8) :
    List TxEffect :=
  let remote := (setOff (NetCore.rpcNetBtSmpSend b env) nb).map TxEffect.remote
  match rpcAppBtSmpSend b env result nb with
  | none => remote
  | some _ => remote ++ [.mcumgrBufFree]

/-- `rpc_app_bt_smp_get_mtu`, lines 164-179; the command is empty. -/
def AppCore.rpcAppBtSmpGetMtu (b : Beyond) (env : Env) (result : Int32) : Option Int32 :=
  sendCommand b (connectedTo (NetCore.rpcNetBtSmpGetMtu env)) result []

/-- `smp_rpc_get_mtu`, lines 181-185. -/
def AppCore.smpRpcGetMtu (b : Beyond) (env : Env) (result : Int32) : Option UInt16 :=
  (rpcAppBtSmpGetMtu b env result).map fun mtu => if mtu < 0 then 0 else mtu.toInt.toNat.toUInt16

/-! ## What the bridge should do -/

def Effect.rxReq? : Effect → Option (List UInt8)
  | .zephyrSmpRxReq data => some data
  | _ => none

def TxEffect.notify? : TxEffect → Option (List UInt8)
  | .remote (.btGattNotify data) => some data
  | _ => none

/-- A write is handed on whole or refused, and nothing is written past a buffer. -/
structure WriteOk (b : Beyond) (env : Env) (result : Int32) (write : List UInt8) : Prop where
  handed : (NetCore.smpBtChrWrite b env write).filterMap Effect.rxReq? = [write] ∨
    (NetCore.smpBtChrWrite b env write).filterMap Effect.rxReq? = [] ∧
      ∃ err, NetCore.rpcNetBtSmpReceiveCb b env result write = some err ∧ err < 0
  decodeBuffer : (cborValueCopyByteString b (Cbor.encodeBytes write) 270).2.length ≤ 270
  mcumgrBuffer : ∀ data, .netBufAddMem data ∈ NetCore.smpBtChrWrite b env write →
    data.length ≤ env.mcumgrBufSize

/-- A response is notified once, as it is, and its buffer is freed once. -/
structure TxOk (b : Beyond) (env : Env) (result : Int32) (nb : List UInt8) : Prop where
  notified : (AppCore.smpRpcTxPkt b env result nb).filterMap TxEffect.notify? = [nb]
  freed : (AppCore.smpRpcTxPkt b env result nb).count .mcumgrBufFree = 1

/-- The MTU less the three bytes of a notification's header; 0 without a connection. -/
def payloadMtu : Option Conn → UInt16
  | none => 0
  | some conn => conn.mtu - 3

structure SmpAgrees (b : Beyond) (env : Env) (currentConn : Option Conn) (result : Int32)
    (write nb : List UInt8) : Prop where
  write : WriteOk b env result write
  mtu : AppCore.smpRpcGetMtu b (env.withConn currentConn) result = some (payloadMtu currentConn)
  tx : TxOk b env result nb

/-! ## One byte string and its answer -/

variable {b : Beyond} {env : Env} {result : Int32}

section Transfer

variable {size : Nat} {badMsg : Int32} {receive : List UInt8 → List Effect × Int32}
variable {buffer : List UInt8}

/-- What a decoder of one byte string does with a command that is one. -/
theorem byteStringDecoder_encodeBytes (short : buffer.length < 2 ^ 16) :
    byteStringDecoder b size badMsg receive (Cbor.encodeBytes buffer) =
      if buffer.length ≤ size then
        (receive buffer).1 ++ .decodingDone :: rspErrorCodeSend (receive buffer).2
      else .decodingDone :: rspErrorCodeSend (-badMsg) := by
  rw [byteStringDecoder, byteString?_encodeBytes short]
  by_cases fits : buffer.length ≤ size
  · rw [if_pos fits, if_pos fits]
  · rw [if_neg fits, if_neg fits]

theorem connectedTo_encodeBytes (quiet : ∀ buf, Quiet (receive buf).1)
    (short : buffer.length < 2 ^ 16) :
    connectedTo (byteStringDecoder b size badMsg receive) (Cbor.encodeBytes buffer) =
      some (0, Cbor.encodeInt
        (if buffer.length ≤ size then (receive buffer).2 else -badMsg).toInt) := by
  rw [connectedTo, nrfRpcCborCmd, byteStringDecoder_encodeBytes short]
  split
  · rw [responses_append, (quiet buffer).responses]
    rfl
  · rfl

/-- **The sender of one byte string returns what was done with it.** -/
theorem byteStringSend_connected (quiet : ∀ buf, Quiet (receive buf).1)
    (nonempty : 1 ≤ buffer.length) (short : buffer.length < 2 ^ 16) :
    byteStringSend b (connectedTo (byteStringDecoder b size badMsg receive)) result
        (some buffer) =
      some (if buffer.length ≤ size then (receive buffer).2 else -badMsg) := by
  rw [byteStringSend]
  simp only [if_neg (show ¬ buffer.length < 1 by omega), sendCommand,
    connectedTo_encodeBytes quiet short, Option.map_some, rspErrorCodeHandle_encodeInt]
  exact congrArg some (if_neg (by decide))

end Transfer

/-! ## Writes -/

section Writes

variable {write : List UInt8}

theorem smpBtChrWrite_eq (nonempty : 1 ≤ write.length) (short : write.length < 2 ^ 16) :
    NetCore.smpBtChrWrite b env write =
      if write.length ≤ 270 then
        (AppCore.smpReceiveData env write).1 ++
          .decodingDone :: rspErrorCodeSend (AppCore.smpReceiveData env write).2
      else .decodingDone :: rspErrorCodeSend (-NRF_EBADMSG) := by
  rw [NetCore.smpBtChrWrite, setOff, if_neg (by omega), AppCore.rpcAppBtSmpReceiveCb,
    byteStringDecoder_encodeBytes short]

theorem rpcNetBtSmpReceiveCb_eq (nonempty : 1 ≤ write.length) (short : write.length < 2 ^ 16) :
    NetCore.rpcNetBtSmpReceiveCb b env result write =
      some (if write.length ≤ 270 then (AppCore.smpReceiveData env write).2 else -NRF_EBADMSG) :=
  byteStringSend_connected quiet_smpReceiveData nonempty short

/-- The write is refused, or there is room for it. -/
def WriteFits (env : Env) (write : List UInt8) : Prop :=
  env.mcumgrBuf = false ∨ write.length ≤ env.mcumgrBufSize ∨ 270 < write.length

theorem write_handed (nonempty : 1 ≤ write.length) (short : write.length < 2 ^ 16) :
    (NetCore.smpBtChrWrite b env write).filterMap Effect.rxReq? = [write] ∨
      (NetCore.smpBtChrWrite b env write).filterMap Effect.rxReq? = [] ∧
        ∃ err, NetCore.rpcNetBtSmpReceiveCb b env result write = some err ∧ err < 0 := by
  rw [smpBtChrWrite_eq nonempty short, rpcNetBtSmpReceiveCb_eq nonempty short]
  by_cases fits : write.length ≤ 270
  · rw [if_pos fits, if_pos fits]
    cases alloc : env.mcumgrBuf with
    | false =>
        simp only [AppCore.smpReceiveData, alloc]
        exact Or.inr ⟨rfl, -ENOMEM, rfl, by decide⟩
    | true =>
        simp only [AppCore.smpReceiveData, alloc]
        exact Or.inl rfl
  · rw [if_neg fits, if_neg fits]
    exact Or.inr ⟨rfl, _, rfl, by decide⟩

theorem decode_buffer (short : write.length < 2 ^ 16) :
    (cborValueCopyByteString b (Cbor.encodeBytes write) 270).2.length ≤ 270 := by
  simp only [cborValueCopyByteString, item?_encodeBytes short]
  split
  · assumption
  · exact Nat.zero_le _

/-- What is written to the mcumgr buffer. -/
theorem netBufAddMem_iff (nonempty : 1 ≤ write.length) (short : write.length < 2 ^ 16)
    (data : List UInt8) :
    .netBufAddMem data ∈ NetCore.smpBtChrWrite b env write ↔
      data = write ∧ write.length ≤ 270 ∧ env.mcumgrBuf = true := by
  rw [smpBtChrWrite_eq nonempty short]
  by_cases fits : write.length ≤ 270
  · rw [if_pos fits]
    cases alloc : env.mcumgrBuf with
    | false => simp [AppCore.smpReceiveData, alloc, rspErrorCodeSend]
    | true => simp [AppCore.smpReceiveData, alloc, rspErrorCodeSend, fits]
  · rw [if_neg fits]
    simp [rspErrorCodeSend, fits]

/-- **A write is handed on whole or refused, within the buffers**, where it fits. -/
theorem write_ok_iff (nonempty : 1 ≤ write.length) (short : write.length < 2 ^ 16) :
    WriteOk b env result write ↔ WriteFits env write := by
  constructor
  · rintro ⟨_, _, within⟩
    by_cases alloc : env.mcumgrBuf = true
    · by_cases fits : write.length ≤ 270
      · exact Or.inr (Or.inl (within write ((netBufAddMem_iff nonempty short write).mpr
          ⟨rfl, fits, alloc⟩)))
      · exact Or.inr (Or.inr (Nat.lt_of_not_le fits))
    · exact Or.inl (Bool.eq_false_iff.mpr alloc)
  · intro fits
    refine ⟨write_handed nonempty short, decode_buffer short, ?_⟩
    intro data member
    obtain ⟨rfl, inDecodeBuffer, alloc⟩ := (netBufAddMem_iff nonempty short data).mp member
    rcases fits with none | room | long
    · exact absurd (alloc.symm.trans none) (by decide)
    · exact room
    · omega

end Writes

/-! ## The MTU -/

/-- The subtraction is one of 16 bits, and comes back as it is. -/
theorem smpRpcGetMtu_eq (currentConn : Option Conn) :
    AppCore.smpRpcGetMtu b (env.withConn currentConn) result =
      some (btGattGetMtu currentConn - 3) := by
  generalize sent : btGattGetMtu currentConn - 3 = mtu
  have bound := mtu.toNat_lt
  have value : (Int32.ofNat mtu.toNat).toInt = mtu.toNat :=
    Int32.toInt_ofNat_of_lt (by omega)
  have positive : ¬ Int32.ofNat mtu.toNat < 0 := by
    rw [Int32.lt_iff_toInt_lt, value]
    exact Int.not_lt.mpr (Int.natCast_nonneg _)
  have response : connectedTo (NetCore.rpcNetBtSmpGetMtu (env.withConn currentConn)) [] =
      some (0, Cbor.encodeInt (Int32.ofNat mtu.toNat).toInt) := by
    rw [← sent]
    rfl
  rw [AppCore.smpRpcGetMtu, AppCore.rpcAppBtSmpGetMtu, sendCommand, response]
  simp only [Option.map_some, rspErrorCodeHandle_encodeInt]
  rw [if_neg (show ¬ (0 : Int32) < 0 by decide), if_neg positive, value]
  simp

theorem mtu_ok_iff (currentConn : Option Conn) :
    AppCore.smpRpcGetMtu b (env.withConn currentConn) result = some (payloadMtu currentConn) ↔
      currentConn.isSome = true := by
  rw [smpRpcGetMtu_eq]
  cases currentConn with
  | none => simp [btGattGetMtu, payloadMtu]
  | some conn => simp [btGattGetMtu, payloadMtu]

/-! ## Responses -/

theorem smpRpcTxPkt_eq {nb : List UInt8} (nonempty : 1 ≤ nb.length) (short : nb.length < 2 ^ 16) :
    AppCore.smpRpcTxPkt b env result nb =
      (NetCore.rpcNetBtSmpSend b env (Cbor.encodeBytes nb)).map .remote ++ [.mcumgrBufFree] := by
  have returned : AppCore.rpcAppBtSmpSend b env result nb = _ :=
    byteStringSend_connected (fun _ => ⟨rfl, rfl⟩) nonempty short
  rw [AppCore.smpRpcTxPkt, returned, setOff, if_neg (show ¬ nb.length < 1 by omega)]

/-- **A response is notified once and freed once** where it is not empty and fits the decode
buffer. -/
theorem tx_ok_iff {nb : List UInt8} (short : nb.length < 2 ^ 16) :
    TxOk b env result nb ↔ 1 ≤ nb.length ∧ nb.length ≤ env.smpTxSize := by
  by_cases nonempty : 1 ≤ nb.length
  · have effects : AppCore.smpRpcTxPkt b env result nb = _ := smpRpcTxPkt_eq nonempty short
    rw [NetCore.rpcNetBtSmpSend, byteStringDecoder_encodeBytes short] at effects
    by_cases fits : nb.length ≤ env.smpTxSize
    · rw [if_pos fits] at effects
      refine ⟨fun _ => ⟨nonempty, fits⟩, fun _ => ⟨?_, ?_⟩⟩
      · rw [effects]
        rfl
      · rw [effects]
        rfl
    · rw [if_neg fits] at effects
      refine ⟨fun ok => ?_, fun both => absurd both.2 fits⟩
      have notified := ok.notified
      rw [effects] at notified
      cases notified
  · have empty : nb = [] := List.length_eq_zero_iff.mp (by omega)
    subst empty
    refine ⟨fun ok => ?_, fun both => absurd both.1 nonempty⟩
    have notified := ok.notified
    cases notified

/-! ## The bridge -/

/-- A write that fits, a connection, and a response that is not empty and fits. -/
structure SmpFits (env : Env) (currentConn : Option Conn) (write nb : List UInt8) : Prop where
  write : WriteFits env write
  connected : currentConn.isSome = true
  response : 1 ≤ nb.length ∧ nb.length ≤ env.smpTxSize

/-- **The sizes agree** exactly for those. -/
theorem smp_agrees_iff {currentConn : Option Conn} {write nb : List UInt8}
    (nonempty : 1 ≤ write.length) (short : write.length < 2 ^ 16)
    (mtu : ∀ m, AppCore.smpRpcGetMtu b (env.withConn currentConn) result = some m →
      nb.length ≤ m.toNat) :
    SmpAgrees b env currentConn result write nb ↔ SmpFits env currentConn write nb := by
  have nbShort : nb.length < 2 ^ 16 :=
    Nat.lt_of_le_of_lt (mtu _ (smpRpcGetMtu_eq currentConn)) (UInt16.toNat_lt _)
  constructor
  · rintro ⟨writes, mtuOk, tx⟩
    exact ⟨(write_ok_iff nonempty short).mp writes, (mtu_ok_iff currentConn).mp mtuOk,
      (tx_ok_iff nbShort).mp tx⟩
  · rintro ⟨writes, connected, response⟩
    exact ⟨(write_ok_iff nonempty short).mpr writes, (mtu_ok_iff currentConn).mpr connected,
      (tx_ok_iff nbShort).mpr response⟩

/-- A connection with the MTU of the shipped configuration. -/
def Conn.shipped : Conn where
  mtu := 247
  atLeast := by decide

/-- One byte each way. -/
theorem smp_agrees_one_byte :
    1 ≤ [(1 : UInt8)].length ∧ [(1 : UInt8)].length < 2 ^ 16 ∧
      (SmpAgrees .refuses .quiet (some .shipped) 0 [1] [2] ↔
        SmpFits .quiet (some .shipped) [1] [2]) := by
  refine ⟨by decide, by decide, smp_agrees_iff (by decide) (by decide) ?_⟩
  intro m mtu
  rw [smpRpcGetMtu_eq] at mtu
  rw [← Option.some.inj mtu]
  decide

/-- Without a connection the MTU is 65533. -/
theorem no_connection_is_65533 :
    ¬ ∀ (b : Beyond) (env : Env) (currentConn : Option Conn) (result : Int32)
      (write nb : List UInt8), 1 ≤ write.length → write.length < 2 ^ 16 →
      (∀ m, AppCore.smpRpcGetMtu b (env.withConn currentConn) result = some m →
        nb.length ≤ m.toNat) →
      SmpAgrees b env currentConn result write nb := by
  intro always
  have agrees := always .refuses .quiet none 0 [1] [] (by decide) (by decide)
    fun _ _ => Nat.zero_le _
  have wraps : AppCore.smpRpcGetMtu .refuses (Env.quiet.withConn none) 0 = some 65533 := by
    rw [smpRpcGetMtu_eq]
    rfl
  exact absurd (wraps.symm.trans agrees.mtu) (by decide)

end NcsExp.Rpc
