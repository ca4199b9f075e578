/-
# NcsExp.Rpc.Model -- the remote procedure calls between the two cores

A command is a CBOR sequence.  The other core decodes it, says that decoding is done, calls
what the command is for, and answers with an integer; meanwhile the caller is blocked in
`nrf_rpc_cbor_cmd`.

* TinyCBOR is given by its specification where it reads an integer or a byte string of
  definite length; `Beyond` is what it does with anything else.
* A decoder is the list of its effects, in order.  What the functions that it calls return
  is in `Env`.
* `generalDecoder` and `byteStringDecoder` are the two shapes of decoder that there are;
  each decoder is one of them at its own values.
-/
import NcsExp.Theory.Cbor

namespace NcsExp.Rpc

open NcsExp.Theory

set_option autoImplicit false

/-! ## TinyCBOR -/

/-- `CborError`. -/
abbrev CborError := Int

def cborNoError : CborError := 0
def cborErrorOutOfMemory : CborError := -2 ^ 31

/-- What TinyCBOR does where the value is not an integer, or not a byte string of definite
length: the error, and what is stored. -/
structure Beyond where
  getInt : List UInt8 → CborError × Int32
  advance : List UInt8 → CborError × List UInt8
  copyByteString : List UInt8 → Nat → CborError × List UInt8

/-- `cbor_value_is_integer`; a `CborValue` is the input from its item on. -/
def cborValueIsInteger (value : List UInt8) : Bool :=
  match Cbor.item? value with
  | some (.int _, _) => true
  | _ => false

/-- `cbor_value_get_int`. -/
def cborValueGetInt (b : Beyond) (value : List UInt8) : CborError × Int32 :=
  match Cbor.item? value with
  | some (.int n, _) => (cborNoError, Int32.ofInt n)
  | _ => b.getInt value

/-- `cbor_value_advance`; the item that follows has to be there. -/
def cborValueAdvance (b : Beyond) (value : List UInt8) : CborError × List UInt8 :=
  match Cbor.item? value with
  | some (_, rest) => if (Cbor.item? rest).isSome then (cborNoError, rest) else b.advance value
  | none => b.advance value

/-- `cbor_value_copy_byte_string` to a buffer of `size` bytes: the error, and what the buffer
holds then. -/
def cborValueCopyByteString (b : Beyond) (value : List UInt8) (size : Nat) :
    CborError × List UInt8 :=
  match Cbor.item? value with
  | some (.bytes bytes, _) =>
      if bytes.length ≤ size then (cborNoError, bytes) else (cborErrorOutOfMemory, [])
  | _ => b.copyByteString value size

/-- The copy, and `cbor_err != CborNoError || length > sizeof(buf)`. -/
def byteString? (b : Beyond) (value : List UInt8) (size : Nat) : Option (List UInt8) :=
  let copy := cborValueCopyByteString b value size
  if copy.1 ≠ cborNoError ∨ copy.2.length > size then none else some copy.2

/-! ## Data -/

def NRF_EINVAL : Int32 := 22
def NRF_EBADMSG : Int32 := 77
def EBADMSG : Int32 := 77
def ENOMEM : Int32 := 12

def CBOR_BUF_SIZE : Nat := 16

/-- `enum rpc_api_type`, the one that the network core distinguishes. -/
def APP2NET_BT_NUS_SEND : Int32 := 2

/-- What a decoder does. -/
inductive Effect
  | decodingDone
  /-- `nrf_rpc_cbor_rsp_no_err`. -/
  | response (payload : List UInt8)
  | net2appReceive (type : Int32) (data : List UInt8)
  | btNusSend (data : List UInt8)
  | resultCallback (data : List UInt8)
  | netBufAddMem (data : List UInt8)
  | zephyrSmpRxReq (data : List UInt8)
  | btGattNotify (data : List UInt8)
  deriving DecidableEq

/-- What the decoders find: what the functions that they call return, whether a callback is
registered, whether `mcumgr_buf_alloc` finds a buffer, and what `bt_gatt_get_mtu(current_conn)`
is; and the sizes that the configuration sets. -/
structure Env where
  net2appReceive : Int32 → List UInt8 → Int32
  btNusSend : List UInt8 → Int32
  btGattNotify : List UInt8 → Int32
  resultCallback : Bool
  mcumgrBuf : Bool
  gattMtu : UInt16
  /-- `CONFIG_MCUMGR_BUF_SIZE`. -/
  mcumgrBufSize : Nat
  /-- `CONFIG_BT_L2CAP_TX_MTU`. -/
  l2capTxMtu : Nat
  /-- `sizeof(buf)` of `rpc_net_bt_smp_send`: the same, or 260 where it is not defined. -/
  smpTxSize : Nat

/-- `rsp_error_code_send`, and the same lines where a decoder has them itself. -/
def rspErrorCodeSend (errCode : Int32) : List Effect := [.response (Cbor.encodeInt errCode.toInt)]

/-! ## The decoders -/

/-- The type and the payload of a general command, up to `cbor_error_exit`. -/
def command? (b : Beyond) (packet : List UInt8) : Option (Int32 × List UInt8) :=
  let type := cborValueGetInt b packet
  if type.1 ≠ cborNoError then none
  else
    let atLength := cborValueAdvance b packet
    if atLength.1 ≠ cborNoError then none
    else if (cborValueGetInt b atLength.2).1 ≠ cborNoError then none
    else
      let atData := cborValueAdvance b atLength.2
      if atData.1 ≠ cborNoError then none
      else (byteString? b atData.2 256).map fun buf => (type.2, buf)

/-- A decoder of general commands; `dispatch` is what it does with one. -/
def generalDecoder (b : Beyond) (dispatch : Int32 → List UInt8 → List Effect × Int32)
    (packet : List UInt8) : List Effect :=
  match command? b packet with
  | none => [.decodingDone]
  | some (type, buf) =>
      .decodingDone :: (dispatch type buf).1 ++ rspErrorCodeSend (dispatch type buf).2

/-- A decoder of a command that is one byte string; `badMsg` is the error where it is not. -/
def byteStringDecoder (b : Beyond) (size : Nat) (badMsg : Int32)
    (receive : List UInt8 → List Effect × Int32) (packet : List UInt8) : List Effect :=
  match byteString? b packet size with
  | none => .decodingDone :: rspErrorCodeSend (-badMsg)
  | some buf => (receive buf).1 ++ .decodingDone :: rspErrorCodeSend (receive buf).2

namespace AppCore

/-- What `rpc_net2app_send` does with a command, line 105 of `rpc_app_api_general.c`. -/
def dispatch (env : Env) (type : Int32) (buf : List UInt8) : List Effect × Int32 :=
  ([.net2appReceive type buf], env.net2appReceive type buf)

/-- The decoder `rpc_net2app_send`, lines 68-115. -/
def rpcNet2appSend (b : Beyond) (env : Env) : List UInt8 → List Effect :=
  generalDecoder b (dispatch env)

/-- `rpc_app_bt_receive_cb`, lines 71-104 of `rpc_app_nus.c`. -/
def rpcAppBtReceiveCb (b : Beyond) (env : Env) (packet : List UInt8) : List Effect :=
  if !env.resultCallback then [.decodingDone]
  else byteStringDecoder b 270 NRF_EBADMSG (fun buf => ([.resultCallback buf], 0)) packet

/-- `smp_receive_data`, lines 34-49 of `rpc_app_smp.c`. -/
def smpReceiveData (env : Env) (buf : List UInt8) : List Effect × Int32 :=
  if !env.mcumgrBuf then ([], -ENOMEM)
  else ([.netBufAddMem buf, .zephyrSmpRxReq buf], Int32.ofNat buf.length)

/-- `rpc_app_bt_smp_receive_cb`, lines 51-75 of `rpc_app_smp.c`. -/
def rpcAppBtSmpReceiveCb (b : Beyond) (env : Env) : List UInt8 → List Effect :=
  byteStringDecoder b 270 NRF_EBADMSG (smpReceiveData env)

end AppCore

namespace NetCore

/-- The `switch` of `rpc_app2net_send`, lines 63-73 of `rpc_net_api_general.c`.  In its other
cases `err` is what the last call before left in it, `CborNoError`. -/
def dispatch (env : Env) (type : Int32) (buf : List UInt8) : List Effect × Int32 :=
  if type = APP2NET_BT_NUS_SEND then ([.btNusSend buf], env.btNusSend buf) else ([], 0)

/-- The decoder `rpc_app2net_send`, lines 26-82. -/
def rpcApp2netSend (b : Beyond) (env : Env) : List UInt8 → List Effect :=
  generalDecoder b (dispatch env)

/-- `rpc_net_bt_nus_send`, lines 21-49 of `rpc_net_nus.c`. -/
def rpcNetBtNusSend (b : Beyond) (env : Env) : List UInt8 → List Effect :=
  byteStringDecoder b env.l2capTxMtu EBADMSG fun buf => ([.btNusSend buf], env.btNusSend buf)

/-- `rpc_net_bt_smp_send`, lines 139-167 of `rpc_net_smp_bt.c`. -/
def rpcNetBtSmpSend (b : Beyond) (env : Env) : List UInt8 → List Effect :=
  byteStringDecoder b env.smpTxSize EBADMSG fun buf =>
    ([.btGattNotify buf], env.btGattNotify buf)

/-- `rpc_net_bt_smp_get_mtu`, lines 173-182 of `rpc_net_smp_bt.c`. -/
def rpcNetBtSmpGetMtu (env : Env) (_ : List UInt8) : List Effect :=
  let mtu : UInt16 := env.gattMtu - 3
  .decodingDone :: rspErrorCodeSend (Int32.ofNat mtu.toNat)

end NetCore

/-! ## The caller -/

/-- The response that an effect is. -/
def Effect.response? : Effect → Option (List UInt8)
  | .response payload => some payload
  | _ => none

def responses (effects : List Effect) : List (List UInt8) := effects.filterMap Effect.response?

/-- `nrf_rpc_cbor_cmd` waits for a response to the command; `none` if there never is one. -/
def nrfRpcCborCmd (decoder : List UInt8 → List Effect) (command : List UInt8) :
    Option (List UInt8) :=
  (responses (decoder command)).head?

/-- `nrf_rpc_cbor_cmd` with a decoder at the end of it: what it returns, and the response. -/
def connectedTo (decoder : List UInt8 → List Effect) (command : List UInt8) :
    Option (Int32 × List UInt8) :=
  (nrfRpcCborCmd decoder command).map fun response => (0, response)

/-- `rsp_error_code_handle`, the same in each file; `handlerData` is what `*handler_data` holds. -/
def rspErrorCodeHandle (b : Beyond) (value : List UInt8) (handlerData : Int32) : Int32 := Id.run do
  let mut handlerData := handlerData
  if !cborValueIsInteger value then
    handlerData := -NRF_EINVAL
  let (cborErr, stored) := cborValueGetInt b value
  handlerData := stored
  if cborErr ≠ cborNoError then
    handlerData := -NRF_EINVAL
  return handlerData

/-- The first assignment does not last. -/
theorem rspErrorCodeHandle_eq (b : Beyond) (value : List UInt8) (handlerData : Int32) :
    rspErrorCodeHandle b value handlerData =
      if (cborValueGetInt b value).1 ≠ cborNoError then -NRF_EINVAL
      else (cborValueGetInt b value).2 := by
  rw [rspErrorCodeHandle]
  generalize cborValueGetInt b value = got
  obtain ⟨cborErr, stored⟩ := got
  cases cborValueIsInteger value with
  | false => by_cases failed : cborErr = cborNoError <;> simp [failed]
  | true => by_cases failed : cborErr = cborNoError <;> simp [failed]

/-- The command that carries a type and a payload. -/
def generalCommand (type : Int32) (buffer : List UInt8) : List UInt8 :=
  Cbor.encodeInt type.toInt ++ (Cbor.encodeInt buffer.length ++ Cbor.encodeBytes buffer)

/-- The end of a sender: what `nrf_rpc_cbor_cmd` returns if it is negative, and what its response
says otherwise.  `cmd` is that call: what it returns and the response, or `none` if there is
no response. -/
def sendCommand (b : Beyond) (cmd : List UInt8 → Option (Int32 × List UInt8)) (result : Int32)
    (command : List UInt8) : Option Int32 :=
  (cmd command).map fun r => if r.1 < 0 then r.1 else rspErrorCodeHandle b r.2 result

/-- A sender of general commands; `result` is what the variable of this name happens to hold. -/
def generalSend (b : Beyond) (cmd : List UInt8 → Option (Int32 × List UInt8)) (result : Int32)
    (type : Int32) (buffer : Option (List UInt8)) : Option Int32 :=
  match buffer with
  | none => some (-NRF_EINVAL)
  | some buffer =>
      if buffer.length < 1 then some (-NRF_EINVAL)
      else sendCommand b cmd result (generalCommand type buffer)

/-- A sender of one byte string. -/
def byteStringSend (b : Beyond) (cmd : List UInt8 → Option (Int32 × List UInt8)) (result : Int32)
    (buffer : Option (List UInt8)) : Option Int32 :=
  match buffer with
  | none => some (-NRF_EINVAL)
  | some buffer =>
      if buffer.length < 1 then some (-NRF_EINVAL)
      else sendCommand b cmd result (Cbor.encodeBytes buffer)

/-- The sender `rpc_app2net_send`, lines 40-66 of the application core's
`rpc_app_api_general.c`. -/
def AppCore.rpcApp2netSend (b : Beyond) (cmd : List UInt8 → Option (Int32 × List UInt8)) :
    Int32 → Int32 → Option (List UInt8) → Option Int32 :=
  generalSend b cmd

/-- The sender `rpc_net2app_send`, lines 102-128 of the network core's
`rpc_net_api_general.c`. -/
def NetCore.rpcNet2appSend (b : Beyond) (cmd : List UInt8 → Option (Int32 × List UInt8)) :
    Int32 → Int32 → Option (List UInt8) → Option Int32 :=
  generalSend b cmd

end NcsExp.Rpc
