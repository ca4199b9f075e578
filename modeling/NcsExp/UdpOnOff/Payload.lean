/-
# NcsExp.UdpOnOff.Payload -- the payload of the on/off uploader

The packet loop of `server_transmission_work_fn` goes through the payload in steps of at most
`EACH_MAX_TCP_PACKET` bytes.  `send` on a stream socket may take fewer bytes than it is asked
to; the loop goes on by what it asked for, so that the bytes not taken are never sent.

* The loop is followed with what it asks for and what `send` returns (`Request`);
  `sendLoop_eq` connects it to the calls of `NcsExp.UdpOnOff.Sockets`.
* `payload_sent_iff`: it is always inside the buffer, and the stream has the payload whenever
  no `send` failed exactly when a `send` fails or each one takes all that it is asked to.
-/
import NcsExp.UdpOnOff.Sockets
import NcsExp.Theory.Memory
import Mathlib.Algebra.Group.Nat.Defs
import Mathlib.Algebra.Group.Int.Defs

namespace NcsExp.UdpOnOff

open NcsExp.Theory

set_option autoImplicit false

/-! ## The buffer -/

/-- `%d` of `cnt`. -/
def decimal (n : Int32) : List UInt8 :=
  let digits := (Nat.toDigits 10 n.toInt.natAbs).map fun c => c.toNat.toUInt8
  if n.toInt < 0 then 45 :: digits else digits

/-- Lines 198-207: `#` all over, two stars at the end, and `pkg:%d ` in front; `cnt` is 0 with
CONFIG_RECEIVE_UDP_PACKETS, and otherwise the number of executions before. -/
def fillBuffer (uploadSize : Nat) (cnt : UInt32) : Memory UInt8 :=
  let buffer : Memory UInt8 := fun i => if i = 0 then 35 else 0
  let buffer := buffer.store 0 (List.replicate uploadSize 35)
  let buffer := buffer.store (uploadSize - 1) [42]
  let buffer := buffer.store (uploadSize - 2) [42]
  buffer.store 0 ([112, 107, 103, 58] ++ decimal cnt.toInt32 ++ [32, 0])

/-- `sizeof(buffer)`. -/
def bufferSize (uploadSize : Nat) : Nat := uploadSize + 8

/-! ## The loop -/

/-- A call of `send`, for `count` bytes from `buffer[first]` on, and what it returned. -/
structure Request where
  first : Nat
  count : Nat
  ret : Int
  deriving DecidableEq

/-- Lines 240-255, from the call number `i` of `send` on; it tells whether the loop was left at its
end and not by the jump to `workerror`. -/
def packetLoop (send : Nat → Int) (i pkgSent packetsToSend : Nat) : List Request × Bool :=
  if 0 < packetsToSend then
    let err := send i
    let request : Request := ⟨pkgSent, pkgOut packetsToSend, err⟩
    if err < 0 then ([request], false)
    else
      let rest := packetLoop send (i + 1) (pkgSent + pkgOut packetsToSend)
        (packetsToSend - pkgOut packetsToSend)
      (request :: rest.1, rest.2)
  else ([], true)
termination_by packetsToSend
decreasing_by
  have some := pkgOut_pos ‹0 < packetsToSend›
  omega

/-- The whole loop. -/
def sendPayload (uploadSize : Nat) (send : Nat → Int) : List Request × Bool :=
  packetLoop send 0 0 (packetsToSend uploadSize)

/-- The bytes that the stream took. -/
def accepted (buffer : Memory UInt8) (requests : List Request) : List UInt8 :=
  requests.flatMap fun r => buffer.load r.first r.ret.toNat

/-- The call that the log of `NcsExp.UdpOnOff.Sockets` has. -/
def Request.call (fd : Int) (r : Request) : Call := .send fd r.count r.ret

/-- The loop of the calls is this loop. -/
theorem sendLoop_eq (w : World) (send : Nat → Int) (i pkgSent rest : Nat) :
    sendLoop w send i rest =
      ({ w with
          calls := w.calls ++ (packetLoop send i pkgSent rest).1.map (Request.call w.clientFd) },
        (packetLoop send i pkgSent rest).2) := by
  fun_induction packetLoop send i pkgSent rest generalizing w with
  | case1 i pkgSent rest more err request failed =>
      rw [sendLoop, if_pos more]
      exact if_pos failed
  | case2 i pkgSent rest more err request sent left ih =>
      rw [sendLoop, if_pos more]
      dsimp only
      rw [if_neg sent, List.map_cons, List.append_cons]
      exact ih (w.call (request.call w.clientFd))
  | case3 i pkgSent rest done =>
      rw [sendLoop, if_neg done, List.map_nil, List.append_nil]

/-! ## What `send` returns -/

/-- How many bytes the call number `j` is for. -/
def requested (rest j : Nat) : Nat := min EACH_MAX_TCP_PACKET (rest - EACH_MAX_TCP_PACKET * j)

/-- Each call fails or takes between 1 byte and what it is asked to. -/
def Answers (rest : Nat) (send : Nat → Int) : Prop :=
  ∀ j, EACH_MAX_TCP_PACKET * j < rest → send j < 0 ∨ 1 ≤ send j ∧ send j ≤ requested rest j

/-- Each call takes all that it is asked to. -/
def TakesAll (rest : Nat) (send : Nat → Int) : Prop :=
  ∀ j, EACH_MAX_TCP_PACKET * j < rest → send j = requested rest j

/-! ## From one call to the next -/

variable {send : Nat → Int} {i pkgSent rest : Nat} {buffer : Memory UInt8}

theorem requested_zero (rest : Nat) : requested rest 0 = pkgOut rest := by
  rw [requested, pkgOut]
  split <;> omega

theorem requested_succ (rest j : Nat) :
    requested rest (j + 1) = requested (rest - pkgOut rest) j := by
  rw [requested, requested, pkgOut, EACH_MAX_TCP_PACKET]
  split <;> omega

theorem answers_iff (more : 0 < rest) : Answers rest (fun j => send (i + j)) ↔
    (send i < 0 ∨ 1 ≤ send i ∧ send i ≤ pkgOut rest) ∧
      Answers (rest - pkgOut rest) (fun j => send (i + 1 + j)) := by
  rw [Answers, Answers, forall_calls more, requested_zero]
  simp only [requested_succ, Nat.add_zero, Nat.add_assoc, Nat.add_comm 1]

theorem takesAll_iff (more : 0 < rest) : TakesAll rest (fun j => send (i + j)) ↔
    send i = pkgOut rest ∧ TakesAll (rest - pkgOut rest) (fun j => send (i + 1 + j)) := by
  rw [TakesAll, TakesAll, forall_calls more, requested_zero]
  simp only [requested_succ, Nat.add_zero, Nat.add_assoc, Nat.add_comm 1]

/-! ## The loop -/

/-- A call is for bytes of the payload that is left, and for at most `EACH_MAX_TCP_PACKET`. -/
theorem packetLoop_inside : ∀ r ∈ (packetLoop send i pkgSent rest).1,
    r.first + r.count ≤ pkgSent + rest ∧ r.count ≤ EACH_MAX_TCP_PACKET := by
  fun_induction packetLoop send i pkgSent rest with
  | case1 i pkgSent rest more err request failed =>
      intro r member
      rw [List.mem_singleton.mp member]
      exact ⟨Nat.add_le_add_left (pkgOut_le rest) pkgSent, pkgOut_le_max rest⟩
  | case2 i pkgSent rest more err request sent left ih =>
      intro r member
      rcases List.mem_cons.mp member with rfl | later
      · exact ⟨Nat.add_le_add_left (pkgOut_le rest) pkgSent, pkgOut_le_max rest⟩
      · obtain ⟨inside, small⟩ := ih r later
        have part := pkgOut_le rest
        exact ⟨by omega, small⟩
  | case3 i pkgSent rest done => simp

/-- The jump is taken when a call fails. -/
theorem packetLoop_jumps_iff (send : Nat → Int) (i pkgSent rest : Nat) :
    (packetLoop send i pkgSent rest).2 = false ↔ Fails rest fun j => send (i + j) := by
  have jumps := sendLoop_fails_iff start send i rest
  rwa [sendLoop_eq start send i pkgSent rest] at jumps

theorem length_accepted_cons (buffer : Memory UInt8) (request : Request) (requests : List Request) :
    (accepted buffer (request :: requests)).length =
      request.ret.toNat + (accepted buffer requests).length := by
  rw [accepted, List.flatMap_cons, List.length_append, Memory.length_load]
  rfl

/-- The stream takes at most what the loop asks it to. -/
theorem length_accepted_le (buffer : Memory UInt8) (pkgSent : Nat)
    (answers : Answers rest fun j => send (i + j)) :
    (accepted buffer (packetLoop send i pkgSent rest).1).length ≤ rest := by
  fun_induction packetLoop send i pkgSent rest with
  | case1 i pkgSent rest more err request failed =>
      rw [length_accepted_cons, Int.toNat_of_nonpos (Int.le_of_lt failed), Nat.zero_add]
      exact Nat.zero_le rest
  | case2 i pkgSent rest more err request sent left ih =>
      obtain ⟨first, others⟩ := (answers_iff more).mp answers
      have took := (first.resolve_left sent).2
      have after : (accepted buffer left.1).length ≤ rest - pkgOut rest := ih others
      have part := pkgOut_le rest
      have ret : request.ret = send i := rfl
      rw [length_accepted_cons, ret]
      omega
  | case3 i pkgSent rest done => exact Nat.zero_le rest

/-- **The loop, where no call fails**: the stream has the payload exactly when each call takes all
that it is asked to. -/
theorem accepted_eq_iff (buffer : Memory UInt8) (pkgSent : Nat)
    (answers : Answers rest fun j => send (i + j))
    (noFail : ¬ Fails rest fun j => send (i + j)) :
    accepted buffer (packetLoop send i pkgSent rest).1 = buffer.load pkgSent rest ↔
      TakesAll rest fun j => send (i + j) := by
  fun_induction packetLoop send i pkgSent rest with
  | case1 i pkgSent rest more err request failed =>
      exact absurd ((fails_iff more).mpr (Or.inl failed)) noFail
  | case2 i pkgSent rest more err request sent left ih =>
      obtain ⟨first, others⟩ := (answers_iff more).mp answers
      obtain ⟨positive, took⟩ := first.resolve_left sent
      rw [fails_iff more, or_iff_right sent] at noFail
      have parts : buffer.load pkgSent rest = buffer.load pkgSent (pkgOut rest) ++
          buffer.load (pkgSent + pkgOut rest) (rest - pkgOut rest) := by
        rw [← Memory.load_add, Nat.add_sub_of_le (pkgOut_le rest)]
      rw [takesAll_iff more, ← ih others noFail, parts]
      have now : accepted buffer (request :: left.1) =
          buffer.load pkgSent (send i).toNat ++ accepted buffer left.1 := List.flatMap_cons ..
      constructor
      · intro same
        -- what is not taken is missing from the length
        have whole := congrArg List.length same
        have after := length_accepted_le buffer (pkgSent + pkgOut rest) others
        rw [now, List.length_append, List.length_append] at whole
        simp only [Memory.length_load] at whole
        have all : send i = pkgOut rest := by
          change (accepted buffer left.1).length ≤ _ at after
          omega
        rw [now, all, Int.toNat_natCast] at same
        exact ⟨all, List.append_cancel_left same⟩
      · rintro ⟨all, same⟩
        rw [now, all, Int.toNat_natCast]
        exact congrArg _ same
  | case3 i pkgSent rest done =>
      have none_ : rest = 0 := by omega
      subst none_
      exact iff_of_true rfl fun j within => absurd within (Nat.not_lt_zero _)

/-! ## The payload -/

theorem packetsToSend_eq {uploadSize : Nat} (fits : uploadSize < 2 ^ 31) :
    packetsToSend uploadSize = uploadSize := by
  rw [packetsToSend]
  split <;> omega

theorem packetsToSend_lt {uploadSize : Nat} (large : 2 ^ 31 ≤ uploadSize) :
    packetsToSend uploadSize < uploadSize := by
  rw [packetsToSend]
  split <;> omega

theorem packetsToSend_le (uploadSize : Nat) : packetsToSend uploadSize ≤ uploadSize := by
  rcases Nat.lt_or_ge uploadSize (2 ^ 31) with fits | large
  · exact Nat.le_of_eq (packetsToSend_eq fits)
  · exact Nat.le_of_lt (packetsToSend_lt large)

/-- **The payload**, whatever its size: the loop stays inside the buffer and sends at most 1024
bytes at once; if it is left without the jump then the stream has the payload, once and in order,
exactly when a call fails, or the size fits `packets_to_send` and each call takes all that it is
asked to. -/
theorem payload_sent_iff (uploadSize : Nat) (buffer : Memory UInt8) (send : Nat → Int)
    (answers : Answers (packetsToSend uploadSize) send) :
    (∀ r ∈ (sendPayload uploadSize send).1,
      r.first + r.count ≤ bufferSize uploadSize ∧ r.count ≤ 1024) ∧
    (((sendPayload uploadSize send).2 = true →
        accepted buffer (sendPayload uploadSize send).1 = buffer.load 0 uploadSize) ↔
      Fails (packetsToSend uploadSize) send ∨
        uploadSize < 2 ^ 31 ∧ TakesAll (packetsToSend uploadSize) send) := by
  have same : (fun j => send (0 + j)) = send := by
    funext j
    rw [Nat.zero_add]
  rw [← same] at answers
  have jumps := packetLoop_jumps_iff send 0 0 (packetsToSend uploadSize)
  have took := accepted_eq_iff buffer 0 answers
  have short := length_accepted_le buffer 0 answers
  rw [same] at jumps took
  refine ⟨fun r member => ?_, ?_⟩
  · have small := packetsToSend_le uploadSize
    obtain ⟨inside, atOnce⟩ := packetLoop_inside r member
    rw [bufferSize]
    exact ⟨by omega, atOnce⟩
  · by_cases fails : Fails (packetsToSend uploadSize) send
    · refine iff_of_true (fun left => ?_) (Or.inl fails)
      exact absurd (jumps.mpr fails) (Bool.eq_false_iff.not.mpr (not_not.mpr left))
    · have left : (sendPayload uploadSize send).2 = true :=
        (Bool.not_eq_false _).mp (mt jumps.mp fails)
      rw [or_iff_right fails, forall_prop_of_true left]
      rcases Nat.lt_or_ge uploadSize (2 ^ 31) with fits | large
      · rw [and_iff_right fits, ← took fails, packetsToSend_eq fits, sendPayload,
          packetsToSend_eq fits]
      · refine iff_of_false (fun all => ?_) fun both => Nat.not_lt_of_le large both.1
        -- fewer bytes than the payload has are asked for
        have fewer := packetsToSend_lt large
        have whole := congrArg List.length all
        rw [Memory.length_load] at whole
        exact absurd (Nat.lt_of_le_of_lt short fewer) (Nat.not_lt_of_le (Nat.le_of_eq whole.symm))

/-- The stream takes all of a call of 1024 bytes, and then all of one of 476. -/
def twoSends (j : Nat) : Int := if j = 0 then 1024 else 476

/-- A payload of 1500 bytes, in two calls. -/
theorem payload_sent_iff_two :
    (∀ r ∈ (sendPayload 1500 twoSends).1,
      r.first + r.count ≤ bufferSize 1500 ∧ r.count ≤ 1024) ∧
    (((sendPayload 1500 twoSends).2 = true →
        accepted (fillBuffer 1500 0) (sendPayload 1500 twoSends).1 =
          (fillBuffer 1500 0).load 0 1500) ↔
      Fails (packetsToSend 1500) twoSends ∨
        1500 < 2 ^ 31 ∧ TakesAll (packetsToSend 1500) twoSends) := by
  refine payload_sent_iff 1500 (fillBuffer 1500 0) twoSends fun j within => Or.inr ?_
  rw [packetsToSend_eq (by decide), EACH_MAX_TCP_PACKET] at within
  rw [packetsToSend_eq (by decide), requested, EACH_MAX_TCP_PACKET, twoSends]
  rcases (by omega : j = 0 ∨ j = 1) with rfl | rfl <;> decide

/-- Ten bytes, of which the stream takes four: the other six are not sent. -/
theorem partial_send_loses :
    ¬ ∀ (uploadSize : Nat) (buffer : Memory UInt8) (send : Nat → Int), 8 ≤ uploadSize →
      Answers (packetsToSend uploadSize) send → (sendPayload uploadSize send).2 = true →
        accepted buffer (sendPayload uploadSize send).1 = buffer.load 0 uploadSize := by
  intro sent
  have ten : packetsToSend 10 = 10 := packetsToSend_eq (by decide)
  have answers : Answers (packetsToSend 10) fun _ => 4 := by
    intro j within
    rw [ten, EACH_MAX_TCP_PACKET] at within
    obtain rfl : j = 0 := by omega
    exact Or.inr (by decide)
  have loop : sendPayload 10 (fun _ => 4) = ([⟨0, 10, 4⟩], true) := by
    rw [sendPayload, ten, packetLoop, packetLoop]
    rfl
  have all := sent 10 (fillBuffer 10 0) (fun _ => 4) (by decide) answers (by rw [loop])
  rw [loop] at all
  exact absurd (congrArg List.length all) (by decide)

end NcsExp.UdpOnOff
