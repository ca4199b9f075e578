/-
# NcsExp.Rpc.Bounds -- what the application core reads and copies of a payload

A command that the application core has decoded goes to one of three receivers, and a
packet of the simulated UART to `rpc_receive_handler`.  Each of them takes the length and
hardly looks at it.

* An access is a range of a buffer, with the number of bytes that the buffer has.  A
  received payload has the bytes that were received; the memory goes on behind them.
* `accesses_inside_iff` says exactly which payloads and packets are safe.
-/
import NcsExp.Rpc.RoundTrip
import NcsExp.Theory.Memory

namespace NcsExp.Rpc.Bounds

open NcsExp.Theory

set_option autoImplicit false

/-! ## Data -/

/-- `UART_BUF_SIZE` of `uart_thread.c`. -/
def UART_BUF_SIZE : Nat := 255

/-- `enum rpc_api_type`, the ones that the application core distinguishes. -/
def NET2APP_BT_ADDR_SEND : Int32 := 1
def NET2APP_BT_NUS_RECV : Int32 := 4
def NET2APP_BT_CONN_STATUS : Int32 := 5

inductive Buffer
  | received
  | btAddr
  | uartData
  deriving DecidableEq

/-- `count` bytes from `first` on, of a buffer that has `size` bytes. -/
structure Access where
  buffer : Buffer
  first : Nat
  count : Nat
  size : Nat
  deriving DecidableEq

def Access.Inside (a : Access) : Prop := a.first + a.count ≤ a.size

def Inside (accesses : List Access) : Prop := ∀ a ∈ accesses, a.Inside

/-- `CONFIG_EXAMPLE_HS_UART`, whether `k_malloc` succeeds, and what `uart_tx` returns. -/
structure Env where
  hsUart : Bool
  malloc : Bool
  uartTx : Int32

structure App where
  btAddr : List UInt8
  /-- `m_connected` of `rpc_app_api.c`. -/
  connected : Bool
  /-- `m_is_connected` of `rpc_thread.c`. -/
  isConnected : Bool
  transmitted : List (List UInt8)
  fifoUartTxData : List (List UInt8)

/-- What a receiver is given: the memory from its pointer on, and the length. -/
structure Payload where
  buf : Memory UInt8
  len : Nat

/-- Bytes that were received, in front of whatever is behind them. -/
def Payload.of (bytes : List UInt8) (behind : Memory UInt8) : Payload :=
  ⟨behind.store 0 bytes, bytes.length⟩

/-- An access to the payload. -/
def Payload.read (p : Payload) (first count : Nat) : Access := ⟨.received, first, count, p.len⟩

/-! ## The receivers -/

/-- `my_uart_send`, lines 125-143 of `uart_thread.c`. -/
def myUartSend (env : Env) (app : App) (p : Payload) : App × List Access :=
  if !env.malloc then (app, [])
  else
    let data := p.buf.load 0 p.len
    let app :=
      if env.uartTx ≠ 0 then { app with fifoUartTxData := app.fifoUartTxData ++ [data] }
      else { app with transmitted := app.transmitted ++ [data] }
    (app, [p.read 0 p.len, ⟨.uartData, 0, p.len, UART_BUF_SIZE⟩])

/-- `net2app_receive_bt_addr`, lines 30-38 of `rpc_app_api.c`: the copy and the two logs. -/
def net2appReceiveBtAddr (app : App) (p : Payload) : App × List Access :=
  ({ app with btAddr := p.buf.load 1 6 },
    [p.read 1 6, ⟨.btAddr, 0, 6, 6⟩, p.read 1 6, p.read 0 1])

/-- `net2app_receive_nus`, lines 44-52. -/
def net2appReceiveNus (env : Env) (app : App) (p : Payload) : App × List Access :=
  if env.hsUart then
    let sent := myUartSend env app p
    (sent.1, p.read 0 p.len :: sent.2)
  else (app, [p.read 0 p.len])

/-- `net2app_receive_conn_status`, lines 54-66. -/
def net2appReceiveConnStatus (app : App) (p : Payload) : App × List Access :=
  ({ app with connected := decide (p.buf 0 = 1) }, [p.read 0 1])

/-- `net2app_receive`, lines 73-93; it returns 0 in every case. -/
def net2appReceive (env : Env) (app : App) (type : Int32) (p : Payload) : App × List Access :=
  if type = NET2APP_BT_ADDR_SEND then net2appReceiveBtAddr app p
  else if type = NET2APP_BT_NUS_RECV then net2appReceiveNus env app p
  else if type = NET2APP_BT_CONN_STATUS then net2appReceiveConnStatus app p
  else (app, [])

/-- `rpc_net2app_send` with its call of `net2app_receive`; `behind` is what is behind the decoded
bytes in `buf`. -/
def rpcNet2appSend (b : Beyond) (env : Env) (app : App) (behind : Memory UInt8)
    (packet : List UInt8) : App × List Access :=
  match command? b packet with
  | none => (app, [])
  | some (type, buf) => net2appReceive env app type (.of buf behind)

/-- `rpc_receive_handler`, lines 54-73 of `rpc_thread.c`. -/
def rpcReceiveHandler (env : Env) (app : App) (p : Payload) : App × List Access :=
  let sent := if env.hsUart then myUartSend env app p else (app, [])
  let app := sent.1
  let before := p.read 0 p.len :: sent.2
  if p.buf 0 = 0x55 then
    if p.buf 1 = 0x01 then
      if p.buf 2 = 0x01 then
        ({ app with isConnected := decide (p.buf 3 = 0) },
          before ++ [p.read 0 1, p.read 1 1, p.read 2 1, p.read 3 1])
      else (app, before ++ [p.read 0 1, p.read 1 1, p.read 2 1])
    else (app, before ++ [p.read 0 1, p.read 1 1])
  else (app, before ++ [p.read 0 1])

/-! ## Which payloads are safe -/

/-- The bytes are copied to a `struct uart_data_t`. -/
def Env.Copies (env : Env) : Prop := env.hsUart = true ∧ env.malloc = true

/-- A command with all the bytes that its type has, and no more than can be sent. -/
structure CommandFits (env : Env) (type : Int32) (bytes : List UInt8) : Prop where
  btAddr : type = NET2APP_BT_ADDR_SEND → 7 ≤ bytes.length
  connStatus : type = NET2APP_BT_CONN_STATUS → 1 ≤ bytes.length
  nus : type = NET2APP_BT_NUS_RECV → env.Copies → bytes.length ≤ UART_BUF_SIZE

/-- A packet that is not cut off where a status frame is looked for, and no longer than can be
sent. -/
structure PacketFits (env : Env) (bytes : List UInt8) : Prop where
  whole : ¬ bytes <+: [0x55, 0x01, 0x01]
  uart : env.Copies → bytes.length ≤ UART_BUF_SIZE

variable {b : Beyond} {env : Env} {app : App} {behind : Memory UInt8} {type : Int32}
  {bytes packet : List UInt8}

theorem inside_append {left right : List Access} :
    Inside (left ++ right) ↔ Inside left ∧ Inside right :=
  List.forall_mem_append

theorem inside_cons {a : Access} {rest : List Access} :
    Inside (a :: rest) ↔ a.Inside ∧ Inside rest :=
  List.forall_mem_cons

@[simp] theorem inside_nil : Inside [] := fun _ mem => nomatch mem

/-- All the bytes that were received. -/
theorem inside_all (p : Payload) : (p.read 0 p.len).Inside := Nat.le_of_eq (Nat.zero_add _)

theorem inside_byte {i : Nat} :
    ((Payload.of bytes behind).read i 1).Inside ↔ i < bytes.length := Iff.rfl

/-- `my_uart_send` copies what it is told to. -/
theorem myUartSend_inside (env : Env) (app : App) (p : Payload) :
    Inside (myUartSend env app p).2 ↔ (env.malloc = true → p.len ≤ UART_BUF_SIZE) := by
  have all := inside_all p
  rw [myUartSend]
  cases env.malloc with
  | false => simp
  | true =>
      simp only [Bool.not_true, Bool.false_eq_true, if_false, inside_cons, inside_nil, and_true,
        all, true_and, true_imp_iff]
      rw [Access.Inside, Nat.zero_add]

/-- **A decoded command** is handled within its buffers if and only if it fits. -/
theorem net2appReceive_inside :
    Inside (net2appReceive env app type (.of bytes behind)).2 ↔ CommandFits env type bytes := by
  have all := inside_all (.of bytes behind)
  have distinct : NET2APP_BT_ADDR_SEND ≠ NET2APP_BT_NUS_RECV ∧
      NET2APP_BT_ADDR_SEND ≠ NET2APP_BT_CONN_STATUS ∧
      NET2APP_BT_NUS_RECV ≠ NET2APP_BT_CONN_STATUS := by decide
  rw [net2appReceive]
  split
  · rename_i isAddr
    have six : ((Payload.of bytes behind).read 1 6).Inside ↔ 7 ≤ bytes.length := Iff.rfl
    subst isAddr
    simp only [net2appReceiveBtAddr, inside_cons, inside_nil, and_true, six, inside_byte]
    constructor
    · rintro ⟨long, -⟩
      exact ⟨fun _ => long, fun other => absurd other distinct.2.1,
        fun other => absurd other distinct.1⟩
    · rintro ⟨long, -, -⟩
      have seven := long rfl
      exact ⟨seven, Nat.le_refl _, seven, by omega⟩
  split
  · rename_i notAddr isNus
    subst isNus
    have sent := myUartSend_inside env app (.of bytes behind)
    have fits : CommandFits env NET2APP_BT_NUS_RECV bytes ↔
        (env.Copies → bytes.length ≤ UART_BUF_SIZE) :=
      ⟨fun fits => fits.nus rfl, fun short => ⟨fun other => absurd other notAddr,
        fun other => absurd other distinct.2.2, fun _ => short⟩⟩
    rw [fits, net2appReceiveNus, Env.Copies]
    cases env.hsUart with
    | false => simp [inside_cons, all]
    | true =>
        simp only [if_true, inside_cons, all, true_and, sent]
        rfl
  split
  · rename_i notAddr notNus isStatus
    subst isStatus
    simp only [net2appReceiveConnStatus, inside_cons, inside_nil, and_true, inside_byte]
    exact ⟨fun one => ⟨fun other => absurd other notAddr, fun _ => one,
      fun other => absurd other notNus⟩, fun fits => fits.connStatus rfl⟩
  · rename_i notAddr notNus notStatus
    exact ⟨fun _ => ⟨fun other => absurd other notAddr, fun other => absurd other notStatus,
      fun other => absurd other notNus⟩, fun _ => inside_nil⟩

/-- The bytes of a packet that `rpc_receive_handler` looks at. -/
def Payload.inspected (p : Payload) : List Access :=
  p.read 0 1 :: if p.buf 0 = 0x55 then
    p.read 1 1 :: if p.buf 1 = 0x01 then
      p.read 2 1 :: if p.buf 2 = 0x01 then [p.read 3 1] else []
    else []
  else []

theorem rpcReceiveHandler_accesses (p : Payload) :
    (rpcReceiveHandler env app p).2 =
      p.read 0 p.len :: (if env.hsUart then myUartSend env app p else (app, [])).2 ++
        p.inspected := by
  rw [rpcReceiveHandler, Payload.inspected]
  by_cases first : p.buf 0 = 0x55
  · by_cases second : p.buf 1 = 0x01
    · by_cases third : p.buf 2 = 0x01
      · simp only [first, second, third, if_true]
      · simp only [first, second, third, if_true, if_false]
    · simp only [first, second, if_true, if_false]
  · simp only [first, if_false]

theorem inside_ite {q : Prop} [Decidable q] {accesses : List Access} :
    Inside (if q then accesses else []) ↔ (q → Inside accesses) := by
  by_cases holds : q
  · simp only [holds, if_true, true_imp_iff]
  · simp only [holds, if_false, false_imp_iff, inside_nil]

/-- **The bytes that are looked at** were received, unless the packet is cut off in front of one. -/
theorem inspected_inside (behind : Memory UInt8) :
    Inside (Payload.of bytes behind).inspected ↔ ¬ bytes <+: [0x55, 0x01, 0x01] := by
  simp only [Payload.inspected, inside_cons, inside_ite, inside_byte, inside_nil, and_true]
  rcases bytes with _ | ⟨first, _ | ⟨second, _ | ⟨third, rest⟩⟩⟩
  · simp
  · simp [Payload.of, Memory.store]
  · simp [Payload.of, Memory.store]
  · rcases rest with _ | ⟨fourth, rest⟩
    · simp [Payload.of, Memory.store]
    · simp [Payload.of, Memory.store]

/-- **A packet** is handled within its buffers if and only if it fits. -/
theorem rpcReceiveHandler_inside :
    Inside (rpcReceiveHandler env app (.of bytes behind)).2 ↔ PacketFits env bytes := by
  have all := inside_all (.of bytes behind)
  have sent : Inside (if env.hsUart then myUartSend env app (.of bytes behind) else (app, [])).2 ↔
      (env.Copies → bytes.length ≤ UART_BUF_SIZE) := by
    have copy := myUartSend_inside env app (.of bytes behind)
    rw [Env.Copies]
    cases env.hsUart with
    | false => simp
    | true =>
        simp only [if_true, true_and, copy]
        rfl
  rw [rpcReceiveHandler_accesses, List.cons_append, inside_cons, inside_append, sent,
    inspected_inside]
  exact ⟨fun ⟨_, uart, whole⟩ => ⟨whole, uart⟩, fun ⟨whole, uart⟩ => ⟨all, uart, whole⟩⟩

/-- The decoder calls `net2app_receive` with the commands that it accepts. -/
theorem net2appReceive_called {rpc : Rpc.Env} :
    .net2appReceive type bytes ∈ AppCore.rpcNet2appSend b rpc packet ↔
      command? b packet = some (type, bytes) := by
  rw [AppCore.rpcNet2appSend, generalDecoder]
  cases command? b packet with
  | none => simp
  | some command =>
      obtain ⟨type', bytes'⟩ := command
      simp [AppCore.dispatch, rspErrorCodeSend, eq_comm]

/-- **Every access** to a command and to a packet is inside its buffer if and only if an accepted
command, and the packet, fits. -/
theorem accesses_inside_iff (b : Beyond) (env : Env) (app : App) (behind : Memory UInt8)
    (packet : List UInt8) :
    (Inside (rpcNet2appSend b env app behind packet).2 ↔
        ∀ type bytes, command? b packet = some (type, bytes) → CommandFits env type bytes) ∧
      (Inside (rpcReceiveHandler env app (.of packet behind)).2 ↔ PacketFits env packet) := by
  refine ⟨?_, rpcReceiveHandler_inside⟩
  rw [rpcNet2appSend]
  cases command? b packet with
  | none => simp
  | some command =>
      obtain ⟨type, bytes⟩ := command
      simp only [Option.some.injEq, Prod.mk.injEq, and_imp, forall_eq', forall_apply_eq_imp_iff]
      exact net2appReceive_inside

/-- **256 bytes of NUS data** are accepted, and copied to 255. -/
theorem longest_command_overflows :
    ¬ ∀ (b : Beyond) (env : Env) (app : App) (behind : Memory UInt8) (packet : List UInt8),
      Inside (rpcNet2appSend b env app behind packet).2 := by
  intro always
  obtain ⟨payload, length⟩ : ∃ payload : List UInt8, payload.length = 256 :=
    ⟨List.replicate 256 0, List.length_replicate⟩
  have accepted : command? .refuses (generalCommand NET2APP_BT_NUS_RECV payload) =
      some (NET2APP_BT_NUS_RECV, payload) := by
    rw [command?_generalCommand _ (by omega), if_pos (Nat.le_of_eq length)]
  have inside := always .refuses ⟨true, true, 0⟩ ⟨[], false, false, [], []⟩ (fun _ => 0)
    (generalCommand NET2APP_BT_NUS_RECV payload)
  rw [rpcNet2appSend, accepted] at inside
  have short := (net2appReceive_inside.mp inside).nus rfl ⟨rfl, rfl⟩
  rw [length] at short
  exact absurd short (by decide)

end NcsExp.Rpc.Bounds
