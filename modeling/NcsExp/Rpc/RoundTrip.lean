/-
# NcsExp.Rpc.RoundTrip -- a general command and its answer

What a sender encodes fits the buffer that it allocates, the other core's decoder recovers
it, and the sender returns what the decoder's function returned
(`returned_of_connected`).  A response that is not an integer is not refused as such:
`round_trips_iff` says when it is.
-/
import NcsExp.Rpc.Responses

namespace NcsExp.Rpc

open NcsExp.Theory

set_option autoImplicit false

/-- From the network core to the application core, or the other way. -/
inductive Direction
  | net2app
  | app2net
  deriving DecidableEq

namespace Direction

def decoder (b : Beyond) (env : Env) : Direction → List UInt8 → List Effect
  | .net2app => AppCore.rpcNet2appSend b env
  | .app2net => NetCore.rpcApp2netSend b env

/-- What the decoder does with a type and a payload, and the error code. -/
def dispatch (env : Env) : Direction → Int32 → List UInt8 → List Effect × Int32
  | .net2app => AppCore.dispatch env
  | .app2net => NetCore.dispatch env

/-- The call that a command is for: `net2app_receive`, or `bt_nus_send` for a packet of NUS; the
other commands of the application core are for none. -/
def calls : Direction → Int32 → List UInt8 → List Effect
  | .net2app, type, payload => [.net2appReceive type payload]
  | .app2net, type, payload => if type = APP2NET_BT_NUS_SEND then [.btNusSend payload] else []

/-- What that call returns. -/
def errorCode (env : Env) : Direction → Int32 → List UInt8 → Int32
  | .net2app, type, payload => env.net2appReceive type payload
  | .app2net, type, payload => if type = APP2NET_BT_NUS_SEND then env.btNusSend payload else 0

def send (b : Beyond) (cmd : List UInt8 → Option (Int32 × List UInt8)) (result : Int32) :
    Direction → Int32 → Option (List UInt8) → Option Int32
  | .net2app => NetCore.rpcNet2appSend b cmd result
  | .app2net => AppCore.rpcApp2netSend b cmd result

end Direction

/-- A command of `type` and `payload`, and a response that some core may send.  The other core
makes the call that the command is for, once, and its error code comes back. -/
structure RoundTrips (b : Beyond) (env : Env) (dir : Direction) (result : Int32) (type : Int32)
    (payload response : List UInt8) : Prop where
  fits : (generalCommand type payload).length ≤ CBOR_BUF_SIZE + payload.length
  recovered : command? b (generalCommand type payload) = some (type, payload)
  dispatched : dir.decoder b env (generalCommand type payload) =
    .decodingDone :: dir.calls type payload ++
      [.response (Cbor.encodeInt (dir.errorCode env type payload).toInt)]
  returned : dir.send b (connectedTo (dir.decoder b env)) result type (some payload) =
    some (dir.errorCode env type payload)
  refused : cborValueIsInteger response = false →
    dir.send b (fun _ => some (0, response)) result type (some payload) = some (-NRF_EINVAL)

/-! ## Integers and byte strings -/

section Values

variable {b : Beyond}

theorem cborValueGetInt_encodeInt (n : Int32) :
    cborValueGetInt b (Cbor.encodeInt n.toInt) = (cborNoError, n) := by
  have low := n.le_toInt
  have high := n.toInt_lt
  have item := Cbor.item?_encodeInt (show -2 ^ 64 ≤ n.toInt by omega) (by omega) []
  rw [List.append_nil] at item
  rw [cborValueGetInt_of_item item, Int32.ofInt_toInt]

theorem item?_encodeBytes {bytes : List UInt8} (short : bytes.length < 2 ^ 16) :
    Cbor.item? (Cbor.encodeBytes bytes) = some (.bytes bytes, []) := by
  have item := Cbor.item?_encodeBytes (show bytes.length < 2 ^ 64 by omega) []
  rwa [List.append_nil] at item

/-- A byte string is received exactly when it fits. -/
theorem byteString?_encodeBytes {bytes : List UInt8} (short : bytes.length < 2 ^ 16) (size : Nat) :
    byteString? b (Cbor.encodeBytes bytes) size =
      if bytes.length ≤ size then some bytes else none :=
  byteString?_of_item (item?_encodeBytes short) size

/-- A general command is decoded exactly when its payload fits. -/
theorem command?_generalCommand (type : Int32) {payload : List UInt8}
    (short : payload.length < 2 ^ 16) :
    command? b (generalCommand type payload) =
      if payload.length ≤ 256 then some (type, payload) else none := by
  have low := type.le_toInt
  have high := type.toInt_lt
  have first := Cbor.item?_encodeInt (show -2 ^ 64 ≤ type.toInt by omega) (by omega)
    (Cbor.encodeInt payload.length ++ Cbor.encodeBytes payload)
  have second := Cbor.item?_encodeInt (show -2 ^ 64 ≤ (payload.length : Int) by omega) (by omega)
    (Cbor.encodeBytes payload)
  rw [generalCommand, command?_of_items first second (item?_encodeBytes short),
    Int32.ofInt_toInt]

end Values

/-! ## The answer -/

section Answer

variable {b : Beyond} {env : Env} {dir : Direction} {result type : Int32}
variable {payload response : List UInt8}

/-- An error code comes back as it is. -/
theorem rspErrorCodeHandle_encodeInt (err result : Int32) :
    rspErrorCodeHandle b (Cbor.encodeInt err.toInt) result = err := by
  simp only [rspErrorCodeHandle_eq, cborValueGetInt_encodeInt, ne_eq, not_true_eq_false, if_false]

theorem decoder_eq (dir : Direction) :
    dir.decoder b env = generalDecoder b (dir.dispatch env) := by
  cases dir <;> rfl

/-- The decoder makes the call that the command is for. -/
theorem dispatch_eq (dir : Direction) :
    dir.dispatch env type payload = (dir.calls type payload, dir.errorCode env type payload) := by
  cases dir with
  | net2app => rfl
  | app2net =>
      rw [Direction.dispatch, NetCore.dispatch, Direction.calls, Direction.errorCode]
      by_cases nus : type = APP2NET_BT_NUS_SEND
      · rw [if_pos nus, if_pos nus, if_pos nus]
      · rw [if_neg nus, if_neg nus, if_neg nus]

theorem send_eq (dir : Direction) (cmd : List UInt8 → Option (Int32 × List UInt8)) :
    dir.send b cmd result = generalSend b cmd result := by
  cases dir <;> rfl

theorem quiet_dispatch (dir : Direction) (type : Int32) (buf : List UInt8) :
    Quiet (dir.dispatch env type buf).1 := by
  cases dir with
  | net2app => exact quiet_appDispatch type buf
  | app2net => exact quiet_netDispatch type buf

theorem send_answered (nonempty : 1 ≤ payload.length) :
    dir.send b (fun _ => some (0, response)) result type (some payload) =
      some (rspErrorCodeHandle b response result) := by
  rw [send_eq, generalSend]
  simp only [sendCommand, Option.map_some, if_neg (show ¬ payload.length < 1 by omega)]
  exact congrArg Option.some (if_neg (by decide))

/-- The decoder of a command that fits. -/
theorem decoder_generalCommand (short : payload.length ≤ 256) :
    dir.decoder b env (generalCommand type payload) =
      .decodingDone :: (dir.dispatch env type payload).1 ++
        rspErrorCodeSend (dir.dispatch env type payload).2 := by
  rw [decoder_eq, generalDecoder, command?_generalCommand type (by omega), if_pos short]

theorem connected_generalCommand (short : payload.length ≤ 256) :
    connectedTo (dir.decoder b env) (generalCommand type payload) =
      some (0, Cbor.encodeInt (dir.dispatch env type payload).2.toInt) := by
  rw [connectedTo, nrfRpcCborCmd, decoder_generalCommand short, List.cons_append,
    ← List.singleton_append, responses_append, responses_append, (quiet_dispatch dir _ _).responses]
  rfl

/-- **The sender returns what the decoder's function did.** -/
theorem returned_of_connected (nonempty : 1 ≤ payload.length) (short : payload.length ≤ 256) :
    dir.send b (connectedTo (dir.decoder b env)) result type (some payload) =
      some (dir.dispatch env type payload).2 := by
  rw [send_eq, generalSend]
  simp only [sendCommand, connected_generalCommand short, Option.map_some,
    if_neg (show ¬ payload.length < 1 by omega), rspErrorCodeHandle_encodeInt]
  exact congrArg Option.some (if_neg (by decide))

theorem length_generalCommand_le (short : payload.length ≤ 256) :
    (generalCommand type payload).length ≤ CBOR_BUF_SIZE + payload.length := by
  have low := type.le_toInt
  have high := type.toInt_lt
  have first := Cbor.length_encodeInt_le (show -2 ^ 32 ≤ type.toInt by omega) (by omega)
  have second := Cbor.length_encodeInt_le (show -2 ^ 32 ≤ (payload.length : Int) by omega)
    (by omega)
  have third := Cbor.length_encodeBytes_le (show payload.length < 2 ^ 16 by omega)
  rw [generalCommand, List.length_append, List.length_append, CBOR_BUF_SIZE]
  omega

/-- The response is an integer, or reading an integer from it fails or gives the error. -/
def Refused (b : Beyond) (response : List UInt8) : Prop :=
  cborValueIsInteger response = true ∨ (cborValueGetInt b response).1 ≠ cborNoError ∨
    (cborValueGetInt b response).2 = -NRF_EINVAL

theorem refused_iff (result : Int32) :
    (cborValueIsInteger response = false →
      rspErrorCodeHandle b response result = -NRF_EINVAL) ↔ Refused b response := by
  rw [rspErrorCodeHandle_eq, Refused]
  cases cborValueIsInteger response with
  | true => simp
  | false =>
      by_cases failed : (cborValueGetInt b response).1 ≠ cborNoError
      · simp [failed]
      · simp [failed]

/-- **A command and its answer go round**, unless the response is something else than an integer
and TinyCBOR reads another integer from it. -/
theorem round_trips_iff (nonempty : 1 ≤ payload.length) (short : payload.length ≤ 256) :
    RoundTrips b env dir result type payload response ↔ Refused b response := by
  rw [← refused_iff result]
  constructor
  · rintro ⟨_, _, _, _, refused⟩ other
    have returned := refused other
    rw [send_answered nonempty] at returned
    exact Option.some.inj returned
  · intro refused
    refine ⟨length_generalCommand_le short, ?_, ?_, ?_, ?_⟩
    · rw [command?_generalCommand type (by omega), if_pos short]
    · rw [decoder_generalCommand short, dispatch_eq]
      rfl
    · rw [returned_of_connected nonempty short, dispatch_eq]
    · intro other
      rw [send_answered nonempty, refused other]

end Answer

/-- A NUS packet of one byte. -/
theorem round_trips_nus :
    1 ≤ [(7 : UInt8)].length ∧ [(7 : UInt8)].length ≤ 256 ∧
      (RoundTrips .refuses .quiet .app2net 0 APP2NET_BT_NUS_SEND [7] [0] ↔
        Refused .refuses [0]) :=
  ⟨by decide, by decide, round_trips_iff (by decide) (by decide)⟩

/-- A TinyCBOR that reads the length of a byte string as its integer, without assertions. -/
def Beyond.reads : Beyond where
  getInt := fun value =>
    match Cbor.item? value with
    | some (.bytes bytes, _) => (cborNoError, Int32.ofNat bytes.length)
    | _ => (1, 0)
  advance := fun value => (1, value)
  copyByteString := fun _ _ => (1, [])

/-- A byte string of one byte as the response: the sender returns 1. -/
theorem byte_string_response_is_read :
    ¬ ∀ (b : Beyond) (env : Env) (dir : Direction) (result type : Int32)
      (payload response : List UInt8), 1 ≤ payload.length → payload.length ≤ 256 →
      RoundTrips b env dir result type payload response := by
  intro always
  have refused := (always .reads .quiet .net2app 0 4 [7] (Cbor.encodeBytes [7]) (by decide)
    (by decide)).refused (by decide)
  exact absurd refused (by decide +kernel)

end NcsExp.Rpc
