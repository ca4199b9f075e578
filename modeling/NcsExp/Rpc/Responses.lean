/-
# NcsExp.Rpc.Responses -- which commands are answered

`answers_once_iff`: a decoder says once that decoding is done and answers once, unless it is
one of the two for general commands and the command does not decode, or it is the one for
received NUS data and no callback is registered.  Then it does not answer, and its caller
waits for ever (`waits_of_unanswered`).  `command?_of_items`: what TinyCBOR specifies decodes
exactly where the byte string fits.
-/
import NcsExp.Rpc.Model

namespace NcsExp.Rpc

open NcsExp.Theory

set_option autoImplicit false

/-- The command decoders of the two cores. -/
inductive Decoder
  | rpcNet2appSend
  | rpcApp2netSend
  | rpcAppBtReceiveCb
  | rpcAppBtSmpReceiveCb
  | rpcNetBtNusSend
  | rpcNetBtSmpSend
  | rpcNetBtSmpGetMtu
  deriving DecidableEq

def Decoder.run (b : Beyond) (env : Env) : Decoder → List UInt8 → List Effect
  | .rpcNet2appSend => AppCore.rpcNet2appSend b env
  | .rpcApp2netSend => NetCore.rpcApp2netSend b env
  | .rpcAppBtReceiveCb => AppCore.rpcAppBtReceiveCb b env
  | .rpcAppBtSmpReceiveCb => AppCore.rpcAppBtSmpReceiveCb b env
  | .rpcNetBtNusSend => NetCore.rpcNetBtNusSend b env
  | .rpcNetBtSmpSend => NetCore.rpcNetBtSmpSend b env
  | .rpcNetBtSmpGetMtu => NetCore.rpcNetBtSmpGetMtu env

/-- Decoding is done once, there is one response, and the caller gets it. -/
structure AnswersOnce (b : Beyond) (env : Env) (d : Decoder) (packet : List UInt8) : Prop where
  decodingDone : (d.run b env packet).count .decodingDone = 1
  response : (responses (d.run b env packet)).length = 1
  resumes : (nrfRpcCborCmd (d.run b env) packet).isSome = true

/-- Where a decoder answers. -/
def Decoder.Answers (b : Beyond) (env : Env) (packet : List UInt8) : Decoder → Prop
  | .rpcNet2appSend => (command? b packet).isSome = true
  | .rpcApp2netSend => (command? b packet).isSome = true
  | .rpcAppBtReceiveCb => env.resultCallback = true
  | .rpcAppBtSmpReceiveCb => True
  | .rpcNetBtNusSend => True
  | .rpcNetBtSmpSend => True
  | .rpcNetBtSmpGetMtu => True

/-! ## Which commands decode -/

section Decoding

variable {b : Beyond} {value rest bytes : List UInt8} {n : Int}

theorem cborValueGetInt_of_item (item : Cbor.item? value = some (.int n, rest)) :
    cborValueGetInt b value = (cborNoError, Int32.ofInt n) := by
  rw [cborValueGetInt, item]

theorem cborValueAdvance_of_item {first next : Cbor.Item × List UInt8}
    (item : Cbor.item? value = some first) (more : Cbor.item? first.2 = some next) :
    cborValueAdvance b value = (cborNoError, first.2) := by
  rw [cborValueAdvance, item]
  exact if_pos (Option.isSome_of_eq_some more)

/-- A byte string is received exactly when it fits. -/
theorem byteString?_of_item (item : Cbor.item? value = some (.bytes bytes, rest)) (size : Nat) :
    byteString? b value size = if bytes.length ≤ size then some bytes else none := by
  simp only [byteString?, cborValueCopyByteString, item]
  by_cases fits : bytes.length ≤ size
  · have notLong : ¬ (cborNoError ≠ cborNoError ∨ bytes.length > size) := by
      rintro (error | long)
      · exact error rfl
      · omega
    rw [if_pos fits, if_pos fits, if_neg notLong]
  · rw [if_neg fits, if_neg fits]
    exact if_pos (Or.inl (by decide))

/-- **A general command decodes exactly when its byte string fits**: it is an integer, an
integer that does not matter, and a byte string. -/
theorem command?_of_items {packet atLength atData : List UInt8} {length : Int}
    (type : Cbor.item? packet = some (.int n, atLength))
    (number : Cbor.item? atLength = some (.int length, atData))
    (data : Cbor.item? atData = some (.bytes bytes, rest)) :
    command? b packet =
      if bytes.length ≤ 256 then some (Int32.ofInt n, bytes) else none := by
  have toLength := cborValueAdvance_of_item (b := b) type number
  have toData := cborValueAdvance_of_item (b := b) number data
  simp only [command?, cborValueGetInt_of_item type, toLength, cborValueGetInt_of_item number,
    toData, byteString?_of_item data, ne_eq, not_true_eq_false, if_false]
  split
  · rfl
  · rfl

end Decoding

/-! ## The two shapes -/

/-- Effects that are neither the end of decoding nor a response. -/
structure Quiet (effects : List Effect) : Prop where
  decodingDone : effects.count .decodingDone = 0
  responses : responses effects = []

/-- A list of effects with one of each. -/
structure Once (effects : List Effect) : Prop where
  decodingDone : effects.count .decodingDone = 1
  response : (responses effects).length = 1

variable {b : Beyond} {env : Env} {d : Decoder} {packet : List UInt8} {effects : List Effect}

theorem responses_append (first second : List Effect) :
    responses (first ++ second) = responses first ++ responses second :=
  List.filterMap_append

theorem quiet_nil : Quiet [] := ⟨rfl, rfl⟩

theorem once_of_quiet (quiet : Quiet effects) (err : Int32) :
    Once (effects ++ .decodingDone :: rspErrorCodeSend err) := by
  refine ⟨?_, ?_⟩
  · rw [List.count_append, quiet.decodingDone]
    simp [rspErrorCodeSend]
  · rw [responses_append, quiet.responses]
    rfl

theorem once_done_first (quiet : Quiet effects) (err : Int32) :
    Once (.decodingDone :: effects ++ rspErrorCodeSend err) := by
  refine ⟨?_, ?_⟩
  · rw [List.cons_append, List.count_cons_self, List.count_append, quiet.decodingDone]
    simp [rspErrorCodeSend]
  · rw [responses_append, show Effect.decodingDone :: effects = [.decodingDone] ++ effects from rfl,
      responses_append, quiet.responses]
    rfl

theorem not_once_unanswered : ¬ Once [.decodingDone] := by
  rintro ⟨_, response⟩
  cases response

/-- A general command is answered exactly when it decodes. -/
theorem once_general_iff {dispatch : Int32 → List UInt8 → List Effect × Int32}
    (quiet : ∀ type buf, Quiet (dispatch type buf).1) :
    Once (generalDecoder b dispatch packet) ↔ (command? b packet).isSome = true := by
  rw [generalDecoder]
  cases command? b packet with
  | none => exact ⟨fun once => absurd once not_once_unanswered, fun none => by cases none⟩
  | some command => exact ⟨fun _ => rfl, fun _ => once_done_first (quiet _ _) _⟩

/-- A byte string is always answered. -/
theorem once_byteString {size : Nat} {badMsg : Int32} {receive : List UInt8 → List Effect × Int32}
    (quiet : ∀ buf, Quiet (receive buf).1) :
    Once (byteStringDecoder b size badMsg receive packet) := by
  rw [byteStringDecoder]
  cases byteString? b packet size with
  | none => exact once_of_quiet quiet_nil _
  | some buf => exact once_of_quiet (quiet buf) _

/-! ## The decoders -/

theorem quiet_appDispatch (type : Int32) (buf : List UInt8) :
    Quiet (AppCore.dispatch env type buf).1 :=
  ⟨rfl, rfl⟩

theorem quiet_netDispatch (type : Int32) (buf : List UInt8) :
    Quiet (NetCore.dispatch env type buf).1 := by
  rw [NetCore.dispatch]
  split
  · exact ⟨rfl, rfl⟩
  · exact ⟨rfl, rfl⟩

theorem quiet_smpReceiveData (buf : List UInt8) : Quiet (AppCore.smpReceiveData env buf).1 := by
  rw [AppCore.smpReceiveData]
  split
  · exact ⟨rfl, rfl⟩
  · exact ⟨rfl, rfl⟩

theorem once_iff : Once (d.run b env packet) ↔ d.Answers b env packet := by
  cases d with
  | rpcNet2appSend => exact once_general_iff quiet_appDispatch
  | rpcApp2netSend => exact once_general_iff quiet_netDispatch
  | rpcAppBtReceiveCb =>
      cases callback : env.resultCallback with
      | false =>
          simp only [Decoder.run, AppCore.rpcAppBtReceiveCb, Decoder.Answers, callback]
          exact ⟨fun once => absurd once not_once_unanswered, fun none => by cases none⟩
      | true =>
          simp only [Decoder.run, AppCore.rpcAppBtReceiveCb, Decoder.Answers, callback]
          exact ⟨fun _ => trivial, fun _ => once_byteString fun _ => ⟨rfl, rfl⟩⟩
  | rpcAppBtSmpReceiveCb => exact ⟨fun _ => trivial, fun _ => once_byteString quiet_smpReceiveData⟩
  | rpcNetBtNusSend => exact ⟨fun _ => trivial, fun _ => once_byteString fun _ => ⟨rfl, rfl⟩⟩
  | rpcNetBtSmpSend => exact ⟨fun _ => trivial, fun _ => once_byteString fun _ => ⟨rfl, rfl⟩⟩
  | rpcNetBtSmpGetMtu => exact ⟨fun _ => trivial, fun _ => once_of_quiet quiet_nil _⟩

/-- The caller resumes where there is a response. -/
theorem resumes_of_once (once : Once (d.run b env packet)) :
    (nrfRpcCborCmd (d.run b env) packet).isSome = true := by
  rw [nrfRpcCborCmd]
  cases answers : responses (d.run b env packet) with
  | nil =>
      have one := once.response
      rw [answers] at one
      cases one
  | cons payload rest => rfl

/-- **Which commands are answered once.** -/
theorem answers_once_iff (b : Beyond) (env : Env) (d : Decoder) (packet : List UInt8) :
    AnswersOnce b env d packet ↔ d.Answers b env packet := by
  rw [← once_iff]
  constructor
  · rintro ⟨decodingDone, response, _⟩
    exact ⟨decodingDone, response⟩
  · intro once
    exact ⟨once.decodingDone, once.response, resumes_of_once once⟩

/-- **A caller that is not answered waits for ever.** -/
theorem waits_of_unanswered (unanswered : ¬ d.Answers b env packet) :
    nrfRpcCborCmd (d.run b env) packet = none := by
  have general (dispatch : Int32 → List UInt8 → List Effect × Int32)
      (none : ¬ (command? b packet).isSome = true) :
      nrfRpcCborCmd (generalDecoder b dispatch) packet = .none := by
    rw [Option.not_isSome_iff_eq_none] at none
    rw [nrfRpcCborCmd, generalDecoder, none]
    rfl
  cases d with
  | rpcNet2appSend => exact general _ unanswered
  | rpcApp2netSend => exact general _ unanswered
  | rpcAppBtReceiveCb =>
      have absent : env.resultCallback = false := by simpa [Decoder.Answers] using unanswered
      simp [nrfRpcCborCmd, Decoder.run, AppCore.rpcAppBtReceiveCb, absent, responses,
        Effect.response?]
  | rpcAppBtSmpReceiveCb => exact absurd trivial unanswered
  | rpcNetBtNusSend => exact absurd trivial unanswered
  | rpcNetBtSmpSend => exact absurd trivial unanswered
  | rpcNetBtSmpGetMtu => exact absurd trivial unanswered

/-- A TinyCBOR that refuses everything else. -/
def Beyond.refuses : Beyond where
  getInt := fun _ => (1, 0)
  advance := fun value => (1, value)
  copyByteString := fun _ _ => (1, [])

/-- Functions that return 0, no callback, and the sizes of the configuration. -/
def Env.quiet : Env where
  net2appReceive := fun _ _ => 0
  btNusSend := fun _ => 0
  btGattNotify := fun _ => 0
  resultCallback := false
  mcumgrBuf := true
  gattMtu := 23
  mcumgrBufSize := 256
  l2capTxMtu := 247
  smpTxSize := 247

/-- A payload of 257 bytes. -/
theorem long_payload_is_not_answered :
    ¬ ∀ (b : Beyond) (env : Env) (d : Decoder) (packet : List UInt8),
      AnswersOnce b env d packet := by
  intro always
  have once := always .refuses .quiet .rpcNet2appSend
    (Cbor.encodeInt 4 ++ (Cbor.encodeInt 257 ++ Cbor.encodeBytes (List.replicate 257 0)))
  exact absurd once.resumes (by decide +kernel)

end NcsExp.Rpc
