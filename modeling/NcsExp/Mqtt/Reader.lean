/-
# NcsExp.Mqtt.Reader -- the payload that the MQTT client reads and echoes

`publish_get_payload` reads an announced payload piece by piece: `mqtt_read_publish_payload`
gives some of the bytes, none (the connection is closed), or an error, of which `-EAGAIN` is
waited for with `poll` and tried again.  `mqtt_evt_handler` publishes what was read, or
disconnects.

* What the library and the socket answer is an environment (`Env`); an answer carries that it
  is one which `mqtt_read_publish_payload` can give.
* Nothing bounds how often the reader tries again, so that it is a loop by fuel
  (`NcsExp.Theory.Loops`).
* `publish_evt_exact` says what is read, published and disconnected for any payload length and
  any answers; that each call is the one due then, with the answer that the environment has for
  it, is `Answered`.
-/
import NcsExp.Theory.History
import NcsExp.Theory.Loops
import NcsExp.Theory.Memory

namespace NcsExp.Mqtt

open NcsExp.Theory

set_option autoImplicit false

/-! ## Data -/

def EIO : Int := 5
def EAGAIN : Int := 11
def EMSGSIZE : Int := 122

def POLLIN : UInt16 := 1
def MSEC_PER_SEC : Nat := 1000
def MQTT_QOS_1_AT_LEAST_ONCE : UInt8 := 1

/-- The part of the configuration that the event handler uses. -/
structure Config where
  /-- CONFIG_MQTT_PAYLOAD_BUFFER_SIZE -/
  payloadBufferSize : Nat
  /-- CONFIG_MQTT_KEEPALIVE -/
  keepalive : Nat
  /-- CONFIG_MQTT_PUB_TOPIC -/
  pubTopic : List UInt8
  /-- CONFIG_MQTT_SUB_TOPIC -/
  subTopic : List UInt8

/-- What `mqtt_read_publish_payload` can answer when `requested` bytes are asked for: an error, or
at most so many bytes. -/
structure ReadAnswer (requested : Nat) where
  ret : Int
  bytes : List UInt8
  count : bytes.length = ret.toNat
  within : ret ≤ requested

structure PollAnswer where
  err : Int
  revents : UInt16

/-- `err > 0 && (fds.revents & POLLIN) == POLLIN`. -/
def PollAnswer.Ready (p : PollAnswer) : Prop := p.err > 0 ∧ p.revents &&& POLLIN = POLLIN

instance (p : PollAnswer) : Decidable p.Ready := inferInstanceAs (Decidable (_ ∧ _))

/-- What the calls return: the reads and the polls by their number. -/
structure Env where
  read : Nat → (requested : Nat) → ReadAnswer requested
  poll : Nat → PollAnswer
  rand32 : UInt32
  publish : Int
  subscribe : Int
  disconnect : Int

/-- `struct mqtt_publish_param`. -/
structure PublishParam where
  qos : UInt8
  topic : List UInt8
  payload : List UInt8
  messageId : UInt16
  dupFlag : UInt8
  retainFlag : UInt8
  deriving DecidableEq

/-- `struct mqtt_subscription_list` with its one topic. -/
structure Subscription where
  topic : List UInt8
  qos : UInt8
  messageId : UInt16
  deriving DecidableEq

/-- A call, with its arguments and what it returned; a read is for bytes from `payload_buf[first]`
on. -/
inductive Call
  | readPublishPayload (first requested : Nat) (ret : Int) (bytes : List UInt8)
  | poll (timeout : Nat) (ready : Bool)
  | publish (param : PublishParam) (ret : Int)
  | subscribe (list : Subscription) (ret : Int)
  | disconnect (ret : Int)
  deriving DecidableEq

/-- `payload_buf`, and the calls so far. -/
structure World where
  payloadBuf : Memory UInt8
  reads : Nat
  polls : Nat
  calls : List Call

def World.call (w : World) (c : Call) : World := { w with calls := w.calls ++ [c] }

/-! ## The reader -/

/-- The reader, at the offset `buf` of `payload_buf`. -/
structure Reader where
  buf : Nat
  world : World

/-- The answer of the next read, when `length` bytes are announced. -/
def Reader.answer (env : Env) (length : Nat) (r : Reader) : ReadAnswer (length - r.buf) :=
  env.read r.world.reads (length - r.buf)

def Reader.readCall (env : Env) (length : Nat) (r : Reader) : Call :=
  .readPublishPayload r.buf (length - r.buf) (r.answer env length).ret (r.answer env length).bytes

/-- After the call of `mqtt_read_publish_payload`. -/
def Reader.afterRead (env : Env) (length : Nat) (r : Reader) : World :=
  { r.world with
    payloadBuf := r.world.payloadBuf.store r.buf (r.answer env length).bytes
    reads := r.world.reads + 1
    calls := r.world.calls ++ [r.readCall env length] }

def World.pollCall (cfg : Config) (env : Env) (w : World) : Call :=
  .poll (cfg.keepalive * MSEC_PER_SEC) (decide (env.poll w.polls).Ready)

/-- After the call of `poll`. -/
def World.afterPoll (cfg : Config) (env : Env) (w : World) : World :=
  { w with
    polls := w.polls + 1
    calls := w.calls ++ [w.pollCall cfg env] }

/-- One turn of the loop in `publish_get_payload`. -/
def readTurn (cfg : Config) (env : Env) (length : Nat) (r : Reader) : Turn Reader (Int × World) :=
  if r.buf < length then
    let ret := (r.answer env length).ret
    let w := r.afterRead env length
    if ret < 0 then
      if ret ≠ -EAGAIN then .leave (ret, w)
      else if (env.poll w.polls).Ready then .again ⟨r.buf, w.afterPoll cfg env⟩
      else .leave (- EIO, w.afterPoll cfg env)
    else if ret = 0 then .leave (- EIO, w)
    else .again ⟨r.buf + ret.toNat, w⟩
  else .leave (0, r.world)

/-- `publish_get_payload`. -/
def publishGetPayload (cfg : Config) (env : Env) (fuel length : Nat) (w : World) :
    Option (Int × World) :=
  if length > cfg.payloadBufferSize then some (-EMSGSIZE, w)
  else loop (readTurn cfg env length) fuel ⟨0, w⟩

/-! ## The event handler -/

/-- `data_publish`. -/
def dataPublish (cfg : Config) (env : Env) (qos : UInt8) (data : List UInt8) (w : World) : World :=
  w.call (.publish
    { qos
      topic := cfg.pubTopic
      payload := data
      messageId := env.rand32.toUInt16
      dupFlag := 0
      retainFlag := 0 } env.publish)

/-- `subscribe`. -/
def subscribe (cfg : Config) (env : Env) (w : World) : World :=
  w.call (.subscribe ⟨cfg.subTopic, MQTT_QOS_1_AT_LEAST_ONCE, 1234⟩ env.subscribe)

/-- `struct mqtt_evt`, with what the handler uses of it. -/
inductive Evt
  | connack (result : Int)
  | disconnect (result : Int)
  | publish (result : Int) (payloadLen : Nat)
  | puback (result : Int) (messageId : UInt16)
  | suback (result : Int) (messageId : UInt16)
  | pingresp (result : Int)
  | other (type : Int)

/-- `mqtt_evt_handler`. -/
def mqttEvtHandler (cfg : Config) (env : Env) (fuel : Nat) (w : World) : Evt → Option World
  | .connack result => some (if result ≠ 0 then w else subscribe cfg env w)
  | .publish _ payloadLen =>
      (publishGetPayload cfg env fuel payloadLen w).map fun (err, w) =>
        if err ≥ 0 then
          dataPublish cfg env MQTT_QOS_1_AT_LEAST_ONCE (w.payloadBuf.load 0 payloadLen) w
        else w.call (.disconnect env.disconnect)
  | _ => some w

/-! ## What the calls say -/

/-- The bytes that a call read. -/
def Call.piece : Call → List UInt8
  | .readPublishPayload _ _ _ bytes => bytes
  | _ => []

/-- The pieces that were read, one after the other. -/
def pieces (calls : List Call) : List UInt8 := calls.flatMap Call.piece

/-- A read that ends the reader, or a wait that does. -/
def Call.Fatal : Call → Prop
  | .readPublishPayload _ _ ret _ => ret = 0 ∨ ret < 0 ∧ ret ≠ -EAGAIN
  | .poll _ ready => ready = false
  | _ => False

/-- A call of the reader, for bytes inside `payload_buf`. -/
def Call.ReadsInside (size : Nat) : Call → Prop
  | .readPublishPayload first requested _ bytes =>
      first + requested ≤ size ∧ bytes.length ≤ requested
  | .poll _ _ => True
  | _ => False

def Call.IsRead : Call → Bool
  | .readPublishPayload .. => true
  | _ => false

def Call.IsPoll : Call → Bool
  | .poll .. => true
  | _ => false

/-- A read after which the reader waits for the socket. -/
def Call.IsAgain : Call → Bool
  | .readPublishPayload _ _ ret _ => decide (ret = -EAGAIN)
  | _ => false

/-- After these calls the reader waits for the socket. -/
def waits (calls : List Call) : Bool := calls.getLast?.any Call.IsAgain

/-- What a fatal call makes the reader return. -/
def Call.error : Call → Int
  | .readPublishPayload _ _ ret _ => if ret = 0 then - EIO else ret
  | _ => - EIO

/-- The next call of the reader, after those that it has made: it polls after an `-EAGAIN`, and
otherwise it reads what is missing, to where the pieces so far end.  The read number `n` has the
answer number `n`, and so does the poll. -/
def Due (cfg : Config) (env : Env) (length : Nat) (w : World) (past : List Call) : Call → Prop
  | .readPublishPayload first requested ret bytes =>
      let answer := env.read (w.reads + past.countP Call.IsRead) requested
      waits past = false ∧ first = (pieces past).length ∧ requested = length - first ∧
        0 < requested ∧ ret = answer.ret ∧ bytes = answer.bytes
  | .poll timeout ready =>
      waits past = true ∧ timeout = cfg.keepalive * MSEC_PER_SEC ∧
        (ready = true ↔ (env.poll (w.polls + past.countP Call.IsPoll)).Ready)
  | _ => False

/-- The reader makes the call that is due, and none after a fatal one. -/
def Answered (cfg : Config) (env : Env) (length : Nat) (w : World) (past : List Call) (now : Call) :
    Prop :=
  (∀ c ∈ past, ¬ c.Fatal) ∧ Due cfg env length w past now

/-- The pieces add up to the announced length, and nothing fatal happened. -/
def Complete (length : Nat) (made : List Call) : Prop :=
  (pieces made).length = length ∧ ∀ c ∈ made, ¬ c.Fatal

/-- Why the reader returns an error: the payload does not fit, or its last call was fatal. -/
def Failed (cfg : Config) (length : Nat) (made : List Call) (err : Int) : Prop :=
  cfg.payloadBufferSize < length ∧ made = [] ∧ err = -EMSGSIZE ∨
    ∃ c, made.getLast? = some c ∧ c.Fatal ∧ err = c.error

/-- From some turn on the socket answers `-EAGAIN` and `POLLIN` for ever. -/
def AgainForever (cfg : Config) (env : Env) (length : Nat) (w : World) : Prop :=
  ∃ r, Again (readTurn cfg env length) ⟨0, w⟩ r ∧
    ∀ k, (env.read (r.world.reads + k) (length - r.buf)).ret = -EAGAIN ∧
      (env.poll (r.world.polls + k)).Ready

/-! ## One turn -/

variable {cfg : Config} {env : Env} {length : Nat} {w w' : World} {r t : Reader} {err : Int}
  {made : List Call} {c : Call}

/-- All that a turn can do. -/
inductive Turned (cfg : Config) (env : Env) (length : Nat) (r : Reader) :
    Turn Reader (Int × World) → Prop
  | complete (all : length ≤ r.buf) : Turned cfg env length r (.leave (0, r.world))
  | failed (more : r.buf < length) (fails : (r.answer env length).ret < 0)
      (other : (r.answer env length).ret ≠ -EAGAIN) :
      Turned cfg env length r (.leave ((r.answer env length).ret, r.afterRead env length))
  | waited (more : r.buf < length) (eagain : (r.answer env length).ret = -EAGAIN)
      (ready : (env.poll (r.afterRead env length).polls).Ready) :
      Turned cfg env length r (.again ⟨r.buf, (r.afterRead env length).afterPoll cfg env⟩)
  | unready (more : r.buf < length) (eagain : (r.answer env length).ret = -EAGAIN)
      (unready : ¬ (env.poll (r.afterRead env length).polls).Ready) :
      Turned cfg env length r (.leave (- EIO, (r.afterRead env length).afterPoll cfg env))
  | closed (more : r.buf < length) (zero : (r.answer env length).ret = 0) :
      Turned cfg env length r (.leave (- EIO, r.afterRead env length))
  | piece (more : r.buf < length) (some_ : 0 < (r.answer env length).ret) :
      Turned cfg env length r
        (.again ⟨r.buf + (r.answer env length).ret.toNat, r.afterRead env length⟩)

theorem readTurn_turned (cfg : Config) (env : Env) (length : Nat) (r : Reader) :
    Turned cfg env length r (readTurn cfg env length r) := by
  unfold readTurn
  dsimp only
  split
  · rename_i more
    split
    · rename_i fails
      split
      · rename_i other
        exact .failed more fails other
      · rename_i same
        have eagain := not_not.mp same
        split
        · rename_i ready
          exact .waited more eagain ready
        · rename_i unready
          exact .unready more eagain unready
    · split
      · rename_i zero
        exact .closed more zero
      · exact .piece more (by omega)
  · exact .complete (by omega)

/-! ## The invariant -/

/-- While the reader goes on, after the calls that it has made. -/
structure Reading (cfg : Config) (env : Env) (length : Nat) (w : World) (made : List Call)
    (r : Reader) : Prop where
  calls : r.world.calls = w.calls ++ made
  reads : r.world.reads = w.reads + made.countP Call.IsRead
  polls : r.world.polls = w.polls + made.countP Call.IsPoll
  answered : Always (Answered cfg env length w) made
  inside : ∀ c ∈ made, c.ReadsInside cfg.payloadBufferSize
  harmless : ∀ c ∈ made, ¬ c.Fatal
  goesOn : waits made = false
  within : r.buf ≤ length
  loaded : r.world.payloadBuf.load 0 r.buf = pieces made

/-- When the reader has returned. -/
structure Returned (cfg : Config) (env : Env) (length : Nat) (w : World) (made : List Call)
    (err : Int) (w' : World) : Prop where
  calls : w'.calls = w.calls ++ made
  answered : Always (Answered cfg env length w) made
  inside : ∀ c ∈ made, c.ReadsInside cfg.payloadBufferSize
  nonpos : err ≤ 0
  zero_iff : err = 0 ↔ Complete length made
  failed : err ≠ 0 → Failed cfg length made err
  loaded : err = 0 → w'.payloadBuf.load 0 length = pieces made

theorem pieces_snoc (made : List Call) (c : Call) :
    pieces (made ++ [c]) = pieces made ++ c.piece := by
  rw [pieces, pieces, List.flatMap_append, List.flatMap_singleton]

/-- What holds of the calls before and of one more. -/
theorem forall_snoc {P : Call → Prop} (before : ∀ c ∈ made, P c) (now : P c) :
    ∀ d ∈ made ++ [c], P d := by
  intro d member
  rcases List.mem_append.mp member with old | new
  · exact before d old
  · rw [List.mem_singleton.mp new]
    exact now

theorem waits_snoc (made : List Call) (c : Call) : waits (made ++ [c]) = c.IsAgain := by
  simp [waits]

theorem reading_start (cfg : Config) (env : Env) (length : Nat) (w : World) :
    Reading cfg env length w [] ⟨0, w⟩ where
  calls := (List.append_nil _).symm
  reads := rfl
  polls := rfl
  answered := always_nil
  inside := by simp
  harmless := by simp
  goesOn := rfl
  within := Nat.zero_le _
  loaded := rfl

/-- The last call was fatal. -/
theorem Returned.of_fatal (calls : w'.calls = w.calls ++ (made ++ [c]))
    (answered : Always (Answered cfg env length w) (made ++ [c]))
    (inside : ∀ d ∈ made ++ [c], d.ReadsInside cfg.payloadBufferSize) (fatal : c.Fatal)
    (error : err = c.error) (negative : err < 0) :
    Returned cfg env length w (made ++ [c]) err w' where
  calls := calls
  answered := answered
  inside := inside
  nonpos := Int.le_of_lt negative
  zero_iff := iff_of_false (Int.ne_of_lt negative) fun complete =>
    complete.2 c (List.mem_append_right _ List.mem_cons_self) fatal
  failed _ := Or.inr ⟨c, List.getLast?_concat, fatal, error⟩
  loaded zero := absurd zero (Int.ne_of_lt negative)

namespace Reading

theorem readCall_inside (reading : Reading cfg env length w made r)
    (fits : length ≤ cfg.payloadBufferSize) :
    (r.readCall env length).ReadsInside cfg.payloadBufferSize := by
  have within := reading.within
  have count := (r.answer env length).count
  have most := (r.answer env length).within
  refine ⟨?_, ?_⟩ <;> omega

theorem calls_afterRead (reading : Reading cfg env length w made r) :
    (r.afterRead env length).calls = w.calls ++ (made ++ [r.readCall env length]) := by
  rw [Reader.afterRead, reading.calls, List.append_assoc]

/-- The read is the one that is due. -/
theorem answered_read (reading : Reading cfg env length w made r) (more : r.buf < length) :
    Always (Answered cfg env length w) (made ++ [r.readCall env length]) := by
  have offset : r.buf = (pieces made).length := by
    rw [← reading.loaded, Memory.length_load]
  have number := reading.reads
  refine always_snoc.mpr ⟨reading.answered, reading.harmless, reading.goesOn, offset, rfl,
    Nat.sub_pos_of_lt more, ?_, ?_⟩
  · rw [← number]
    rfl
  · rw [← number]
    rfl

/-- And after an `-EAGAIN` the poll is. -/
theorem answered_poll (reading : Reading cfg env length w made r) (more : r.buf < length)
    (eagain : (r.answer env length).ret = -EAGAIN) :
    ¬ (r.readCall env length).Fatal ∧
      Always (Answered cfg env length w)
        (made ++ [r.readCall env length] ++ [(r.afterRead env length).pollCall cfg env]) := by
  have harmless : ¬ (r.readCall env length).Fatal := by
    rintro (zero | ⟨-, other⟩)
    · rw [eagain] at zero
      exact absurd zero (by decide)
    · exact other eagain
  have waiting : waits (made ++ [r.readCall env length]) = true := by
    rw [waits_snoc]
    exact decide_eq_true eagain
  have number : (r.afterRead env length).polls =
      w.polls + (made ++ [r.readCall env length]).countP Call.IsPoll := by
    rw [List.countP_append]
    exact reading.polls
  refine ⟨harmless, always_snoc.mpr ⟨reading.answered_read more,
    forall_snoc reading.harmless harmless, waiting, rfl, ?_⟩⟩
  rw [← number]
  exact decide_eq_true_iff

/-- The buffer and the pieces, after a read. -/
theorem loaded_afterRead (reading : Reading cfg env length w made r) :
    (r.afterRead env length).payloadBuf.load 0 (r.buf + (r.answer env length).ret.toNat) =
      pieces (made ++ [r.readCall env length]) := by
  have stored := Memory.load_store_append r.world.payloadBuf 0 r.buf (r.answer env length).bytes
  rw [Nat.zero_add, (r.answer env length).count, reading.loaded] at stored
  rw [pieces_snoc]
  exact stored

/-- A turn after which the reader goes on. -/
theorem again (reading : Reading cfg env length w made r) (fits : length ≤ cfg.payloadBufferSize)
    (goes : readTurn cfg env length r = .again t) : ∃ made, Reading cfg env length w made t := by
  have turned := readTurn_turned cfg env length r
  have read := reading.readCall_inside fits
  have calls := reading.calls_afterRead
  have loaded := reading.loaded_afterRead
  rw [goes] at turned
  cases turned with
  | waited more eagain ready =>
      obtain ⟨harmless, answered⟩ := reading.answered_poll more eagain
      have passes : ¬ ((r.afterRead env length).pollCall cfg env).Fatal := fun unready =>
        of_decide_eq_false unready ready
      refine ⟨made ++ [r.readCall env length] ++ [(r.afterRead env length).pollCall cfg env], ?_,
        ?_, ?_, answered, ?_, ?_, ?_, reading.within, ?_⟩
      · rw [World.afterPoll, calls, List.append_assoc]
      · rw [List.countP_append, List.countP_append, World.afterPoll, Reader.afterRead,
          reading.reads]
        rfl
      · rw [List.countP_append, List.countP_append, World.afterPoll, Reader.afterRead,
          reading.polls]
        rfl
      · exact forall_snoc (forall_snoc reading.inside read) trivial
      · exact forall_snoc (forall_snoc reading.harmless harmless) passes
      · rw [waits_snoc]
        rfl
      · rw [eagain] at loaded
        rw [pieces_snoc, ← loaded]
        exact (List.append_nil _).symm
  | piece more some_ =>
      have harmless : ¬ (r.readCall env length).Fatal := by
        rintro (zero | ⟨negative, -⟩)
        · exact Int.ne_of_gt some_ zero
        · exact Int.lt_asymm some_ negative
      have most := (r.answer env length).within
      refine ⟨made ++ [r.readCall env length], calls, ?_, ?_, reading.answered_read more, ?_, ?_,
        ?_, ?_, loaded⟩
      · rw [List.countP_append, Reader.afterRead, reading.reads]
        rfl
      · rw [List.countP_append, Reader.afterRead, reading.polls]
        rfl
      · exact forall_snoc reading.inside read
      · exact forall_snoc reading.harmless harmless
      · rw [waits_snoc]
        exact decide_eq_false fun eagain => absurd (eagain ▸ some_) (by decide)
      · dsimp only
        omega

/-- A turn with which the reader returns. -/
theorem leave (reading : Reading cfg env length w made r) (fits : length ≤ cfg.payloadBufferSize)
    (leaves : readTurn cfg env length r = .leave (err, w')) :
    ∃ made, Returned cfg env length w made err w' := by
  have turned := readTurn_turned cfg env length r
  have read := reading.readCall_inside fits
  have calls := reading.calls_afterRead
  have inside := forall_snoc reading.inside read
  rw [leaves] at turned
  cases turned with
  | complete all =>
      have whole : r.buf = length := Nat.le_antisymm reading.within all
      have count : (pieces made).length = length := by
        rw [← reading.loaded, Memory.length_load, whole]
      refine ⟨made, reading.calls, reading.answered, reading.inside, Int.le_refl 0,
        iff_of_true rfl ⟨count, reading.harmless⟩, ?_, ?_⟩
      · intro nonzero
        exact absurd rfl nonzero
      · intro _
        exact whole ▸ reading.loaded
  | failed more fails other =>
      have error : (r.answer env length).ret = (r.readCall env length).error :=
        (if_neg (Int.ne_of_lt fails)).symm
      exact ⟨_, .of_fatal calls (reading.answered_read more) inside (Or.inr ⟨fails, other⟩) error
        fails⟩
  | unready more eagain unready =>
      have waited : ((r.afterRead env length).pollCall cfg env).Fatal := decide_eq_false unready
      have polled : ((r.afterRead env length).pollCall cfg env).ReadsInside
          cfg.payloadBufferSize := trivial
      refine ⟨_, .of_fatal ?_ (reading.answered_poll more eagain).2 (forall_snoc inside polled)
        waited rfl (by decide)⟩
      rw [World.afterPoll, calls, List.append_assoc]
  | closed more zero =>
      have error : - EIO = (r.readCall env length).error := (if_pos zero).symm
      exact ⟨_, .of_fatal calls (reading.answered_read more) inside (Or.inl zero) error (by decide)⟩

end Reading

/-- The reader stays inside `payload_buf` as long as it goes on. -/
theorem again_reading (fits : length ≤ cfg.payloadBufferSize)
    (goes : Again (readTurn cfg env length) ⟨0, w⟩ r) :
    ∃ made, Reading cfg env length w made r := by
  apply goes.invariant ⟨[], reading_start cfg env length w⟩
  rintro r t ⟨made, reading⟩ turned
  exact reading.again fits turned

/-- **The reader**, whenever it returns. -/
theorem publishGetPayload_returned {fuel : Nat}
    (returns : publishGetPayload cfg env fuel length w = some (err, w')) :
    ∃ made, Returned cfg env length w made err w' := by
  unfold publishGetPayload at returns
  split at returns
  · rename_i large
    cases returns
    refine ⟨[], (List.append_nil _).symm, always_nil, by simp, by decide,
      iff_of_false (by decide) ?_, fun _ => Or.inl ⟨large, rfl, rfl⟩,
      fun zero => absurd zero (by decide)⟩
    rintro ⟨none_, -⟩
    exact absurd (none_ ▸ large) (Nat.not_lt_zero _)
  · rename_i fits
    obtain ⟨r, goes, leaves⟩ := exists_leave_of_loop returns
    obtain ⟨made, reading⟩ := again_reading (Nat.le_of_not_lt fits) goes
    exact reading.leave (Nat.le_of_not_lt fits) leaves

/-! ## The readers that do not return -/

/-- A turn brings the reader closer to the end of the payload, or it has waited for the socket. -/
theorem rank_turn (goes : readTurn cfg env length r = .again t) :
    length - t.buf < length - r.buf ∨
      t.buf = r.buf ∧ t.world.reads = r.world.reads + 1 ∧ t.world.polls = r.world.polls + 1 ∧
        (env.read r.world.reads (length - r.buf)).ret = -EAGAIN ∧
        (env.poll r.world.polls).Ready := by
  have turned := readTurn_turned cfg env length r
  rw [goes] at turned
  cases turned with
  | waited more eagain ready => exact Or.inr ⟨rfl, rfl, rfl, eagain, ready⟩
  | piece more some_ =>
      refine Or.inl ?_
      dsimp only
      omega

/-- **The reader returns** unless the socket makes it try again for ever. -/
theorem returns_or_againForever (cfg : Config) (env : Env) (length : Nat) (w : World) :
    (∃ fuel err w', publishGetPayload cfg env fuel length w = some (err, w')) ∨
      AgainForever cfg env length w := by
  by_cases large : length > cfg.payloadBufferSize
  · exact Or.inl ⟨0, -EMSGSIZE, w, if_pos large⟩
  · by_cases returns : ∃ fuel p, loop (readTurn cfg env length) fuel ⟨0, w⟩ = some p
    · obtain ⟨fuel, ⟨err, w'⟩, returned⟩ := returns
      exact Or.inl ⟨fuel, err, w', (if_neg large).trans returned⟩
    · obtain ⟨r, goes, idles⟩ := idles_of_never (fun r => length - r.buf)
        (fun t u _ turned => (rank_turn turned).elim Nat.le_of_lt fun same =>
          Nat.le_of_eq (congrArg _ same.1)) returns
      refine Or.inr ⟨r, goes, ?_⟩
      have later (k : Nat) : ∃ t, Again (readTurn cfg env length) r t ∧ t.buf = r.buf ∧
          t.world.reads = r.world.reads + k ∧ t.world.polls = r.world.polls + k := by
        induction k with
        | zero => exact ⟨r, .here, rfl, rfl, rfl⟩
        | succ k ih =>
            obtain ⟨t, further, buf, reads, polls⟩ := ih
            obtain ⟨u, turned, rank⟩ := idles t further
            rcases rank_turn turned with closer | ⟨buf', reads', polls', -⟩
            · exact absurd rank (Nat.ne_of_lt closer)
            · exact ⟨u, further.next turned, buf'.trans buf, by rw [reads', reads, Nat.add_assoc],
                by rw [polls', polls, Nat.add_assoc]⟩
      intro k
      obtain ⟨t, further, buf, reads, polls⟩ := later k
      obtain ⟨u, turned, rank⟩ := idles t further
      rcases rank_turn turned with closer | ⟨-, -, -, eagain, ready⟩
      · exact absurd rank (Nat.ne_of_lt closer)
      · rw [reads, buf] at eagain
        rw [polls] at ready
        exact ⟨eagain, ready⟩

/-! ## The event -/

/-- What follows the reader: the payload is published once, or the client disconnects once. -/
def answerCall (cfg : Config) (env : Env) (made : List Call) (err : Int) : Call :=
  if err = 0 then
    .publish
      { qos := MQTT_QOS_1_AT_LEAST_ONCE
        topic := cfg.pubTopic
        payload := pieces made
        messageId := env.rand32.toUInt16
        dupFlag := 0
        retainFlag := 0 } env.publish
  else .disconnect env.disconnect

theorem mqttEvtHandler_publish {fuel : Nat} (result : Int)
    (returns : publishGetPayload cfg env fuel length w = some (err, w'))
    (returned : Returned cfg env length w made err w') :
    ∃ after, mqttEvtHandler cfg env fuel w (.publish result length) = some after ∧
      after.calls = w.calls ++ made ++ [answerCall cfg env made err] := by
  rw [mqttEvtHandler, returns, Option.map_some]
  dsimp only
  by_cases zero : err = 0
  · refine ⟨_, congrArg some (if_pos (Int.le_of_eq zero.symm)), ?_⟩
    rw [dataPublish, World.call, returned.calls, returned.loaded zero, answerCall, if_pos zero]
  · have negative : ¬ err ≥ 0 := fun positive => zero (Int.le_antisymm returned.nonpos positive)
    refine ⟨_, congrArg some (if_neg negative), ?_⟩
    rw [World.call, returned.calls, answerCall, if_neg zero]

/-- **The payload of a publish event**, whatever its length and whatever is answered.

Wherever the reader is, and when it returns, its calls are those that are due, each with the
answer that the environment has for it, and reads inside `payload_buf`.  It returns 0 exactly when
the pieces add up to the announced length and nothing fatal happened; then they are in
`payload_buf` and are published, once.  It returns anything else only for a payload that does not
fit or for the fatal call that was its last, and then the client disconnects, once.  It returns,
or tries again for ever. -/
theorem publish_evt_exact (cfg : Config) (env : Env) (length : Nat) (w : World) (result : Int) :
    (∀ r, length ≤ cfg.payloadBufferSize → Again (readTurn cfg env length) ⟨0, w⟩ r →
      ∃ made, r.world.calls = w.calls ++ made ∧ Always (Answered cfg env length w) made ∧
        ∀ c ∈ made, c.ReadsInside cfg.payloadBufferSize) ∧
    (∀ fuel err w', publishGetPayload cfg env fuel length w = some (err, w') →
      ∃ made, w'.calls = w.calls ++ made ∧ Always (Answered cfg env length w) made ∧
        (∀ c ∈ made, c.ReadsInside cfg.payloadBufferSize) ∧
        (err = 0 ↔ Complete length made) ∧
        (err ≠ 0 → Failed cfg length made err) ∧
        (err = 0 → w'.payloadBuf.load 0 length = pieces made) ∧
        ∃ after, mqttEvtHandler cfg env fuel w (.publish result length) = some after ∧
          after.calls = w.calls ++ made ++ [answerCall cfg env made err]) ∧
    ((∃ fuel err w', publishGetPayload cfg env fuel length w = some (err, w')) ∨
      AgainForever cfg env length w) := by
  refine ⟨fun r fits goes => ?_, fun fuel err w' returns => ?_, returns_or_againForever ..⟩
  · obtain ⟨made, reading⟩ := again_reading fits goes
    exact ⟨made, reading.calls, reading.answered, reading.inside⟩
  · obtain ⟨made, returned⟩ := publishGetPayload_returned returns
    obtain ⟨after, handled, calls⟩ := mqttEvtHandler_publish result returns returned
    exact ⟨made, returned.calls, returned.answered, returned.inside, returned.zero_iff,
      returned.failed, returned.loaded, after, handled, calls⟩

/-- The answer that has these bytes, as many as are asked for. -/
def ReadAnswer.ofBytes (bytes : List UInt8) (requested : Nat) : ReadAnswer requested where
  ret := (bytes.take requested).length
  bytes := bytes.take requested
  count := rfl
  within := Int.ofNat_le.mpr (List.length_take_le ..)

def ReadAnswer.eagain (requested : Nat) : ReadAnswer requested where
  ret := -EAGAIN
  bytes := []
  count := rfl
  within := Int.le_trans (by decide) (Int.natCast_nonneg requested)

/-- Three bytes in two pieces, with a wait between them. -/
example :
    (mqttEvtHandler ⟨8, 60, [], []⟩
      { read := fun n =>
          if n = 0 then .ofBytes [1, 2] else if n = 1 then .eagain else .ofBytes [3, 4]
        poll := fun _ => ⟨1, POLLIN⟩
        rand32 := 9
        publish := 0
        subscribe := 0
        disconnect := 0 } 4 ⟨fun _ => 0, 0, 0, []⟩ (.publish 0 3)).map World.calls =
    some [.readPublishPayload 0 3 2 [1, 2], .readPublishPayload 2 1 (-11) [], .poll 60000 true,
      .readPublishPayload 2 1 1 [3], .publish ⟨1, [], [1, 2, 3], 9, 0, 0⟩ 0] := by
  decide +kernel

end NcsExp.Mqtt
