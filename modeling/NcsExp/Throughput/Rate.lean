/-
# NcsExp.Throughput.Rate -- the transfer rate

`write_callback` divides 8 · 10^9 times the bytes since the last reset by the nanoseconds
since then.  Nothing checks that a nanosecond has passed, and the product has 65 bits.

`rates_exact_iff`: in a run every rate is the exact one if and only if at every data write
a nanosecond has passed since the last reset and the bytes are at most 2305843009.
-/
import NcsExp.Throughput.Service

namespace NcsExp.Throughput.Service

open NcsExp.Theory

set_option autoImplicit false

/-! ## The readings of the clock -/

/-- The last reading of the clock in `write_callback`. -/
def Received.lastNow (r : Received) : Nat := if r.buf.length = 1 then r.resetNow else r.now

/-- The last reading after the writes, and the one of the last reset. -/
def lastNow (writes : List Received) : Nat := present (fun _ r => r.lastNow) 0 writes

def lastReset (writes : List Received) : Nat :=
  present (fun t r => if r.buf.length = 1 then r.resetNow else t) 0 writes

/-- The bytes received since the last reset. -/
def bytesSince (writes : List Received) : Nat :=
  present (fun n r => if r.buf.length = 1 then 0 else n + r.buf.length) 0 writes

/-- The clock does not go back, and at a data write it has made less than 2^32 cycles since the
last reset. -/
structure Clocked (done : List Received) (r : Received) : Prop where
  later : lastNow done ≤ r.now
  reset : r.buf.length = 1 → r.now ≤ r.resetNow
  recent : r.buf.length ≠ 1 → r.now < lastReset done + 2 ^ 32

/-- The nanoseconds since the last reset. -/
def elapsedNs (freq : Nat) (done : List Received) (r : Received) : Nat :=
  (r.now - lastReset done) * 10 ^ 9 / freq

variable {freq : Nat} {dataReceived : Bool} {done : List Received} {r : Received}

@[simp] theorem lastNow_snoc : lastNow (done ++ [r]) = r.lastNow := present_snoc

@[simp] theorem lastReset_snoc :
    lastReset (done ++ [r]) = if r.buf.length = 1 then r.resetNow else lastReset done :=
  present_snoc

@[simp] theorem bytesSince_snoc :
    bytesSince (done ++ [r]) = if r.buf.length = 1 then 0 else bytesSince done + r.buf.length :=
  present_snoc

theorem lastReset_le (clocked : Always Clocked done) : lastReset done ≤ lastNow done := by
  induction done using List.reverseRecOn with
  | nil => exact Nat.le_refl 0
  | append_singleton done r ih =>
      obtain ⟨before, now⟩ := always_snoc.mp clocked
      rw [lastReset_snoc, lastNow_snoc, Received.lastNow]
      split
      · exact Nat.le_refl _
      · exact Nat.le_trans (ih before) now.later

/-! ## What the service has of them -/

theorem run_clockCycles :
    (run freq dataReceived done).clockCycles = .ofNat (lastReset done) := by
  induction done using List.reverseRecOn with
  | nil => rfl
  | append_singleton done r ih =>
      rw [run_snoc, writeCallback, lastReset_snoc]
      by_cases command : r.buf.length = 1
      · rw [measure_reset command, if_pos command]
        cases dataReceived <;> rfl
      · rw [measure_data command, if_neg command, ← ih]
        cases dataReceived <;> rfl

theorem run_writeLen :
    (run freq dataReceived done).met.writeLen.toNat = bytesSince done % 2 ^ 32 := by
  induction done using List.reverseRecOn with
  | nil => rfl
  | append_singleton done r ih =>
      rw [run_snoc, writeCallback, bytesSince_snoc]
      by_cases command : r.buf.length = 1
      · rw [measure_reset command, if_pos command]
        cases dataReceived <;> rfl
      · rw [measure_data command, if_neg command]
        have grown : (newLen (run freq dataReceived done) r).toNat =
            (bytesSince done + r.buf.length) % 2 ^ 32 := by
          rw [newLen, UInt32.toNat_add, ih, UInt32.toNat_ofNat']
          omega
        cases dataReceived <;> exact grown

/-- **The 32-bit difference is the time since the reset.** -/
theorem toNat_delta (since : lastReset done ≤ r.now) (recent : r.now < lastReset done + 2 ^ 32) :
    (delta freq (run freq dataReceived done) r).toNat = elapsedNs freq done r := by
  have cycles : (UInt32.ofNat r.now - UInt32.ofNat (lastReset done)).toUInt64.toNat =
      r.now - lastReset done := by
    rw [UInt32.toNat_toUInt64, UInt32.toNat_sub, UInt32.toNat_ofNat', UInt32.toNat_ofNat']
    omega
  have small : (r.now - lastReset done) * 10 ^ 9 / freq < 2 ^ 64 := by
    have floor := Nat.div_le_self ((r.now - lastReset done) * 10 ^ 9) freq
    omega
  rw [delta, run_clockCycles, kCycToNsFloor64, cycles, elapsedNs, UInt64.toNat_ofNat']
  exact Nat.mod_eq_of_lt small

/-! ## The rate -/

theorem rate_safe_iff {writeLen : UInt32} {delta : UInt64} :
    (rate writeLen delta).Safe ↔ 8 * 10 ^ 9 * writeLen.toNat < 2 ^ 64 ∧ delta.toNat ≠ 0 := by
  have small := writeLen.toNat_lt
  have shifted : writeLen.toUInt64.toBitVec.toNat = writeLen.toNat := UInt32.toNat_toUInt64 _
  have billion : (1000000000 : BitVec 64).toNat = 10 ^ 9 := rfl
  simp only [rate, WordExpr.Safe, WordExpr.exact, shifted, billion, true_and]
  refine and_congr ⟨fun safe => by omega, fun fits => ⟨by omega, by omega⟩⟩ Iff.rfl

theorem rate_exact {writeLen : UInt32} {delta : UInt64} :
    (rate writeLen delta).exact = 8 * 10 ^ 9 * writeLen.toNat / delta.toNat := by
  have shifted : writeLen.toUInt64.toBitVec.toNat = writeLen.toNat := UInt32.toNat_toUInt64 _
  have billion : (1000000000 : BitVec 64).toNat = 10 ^ 9 := rfl
  have product : writeLen.toNat * 2 ^ 3 * 10 ^ 9 = 8 * 10 ^ 9 * writeLen.toNat := by omega
  simp only [rate, WordExpr.exact, shifted, billion, product]
  rfl

/-- At a data write nothing wraps and nothing is divided by 0, and the rate is the exact one if
that fits 32 bits. -/
def RateExact (freq : Nat) (dataReceived : Bool) (done : List Received) (r : Received) : Prop :=
  r.buf.length ≠ 1 →
    (rate (newLen (run freq dataReceived done) r)
      (delta freq (run freq dataReceived done) r)).Safe ∧
    (8 * 10 ^ 9 * bytesSince (done ++ [r]) / elapsedNs freq done r < 2 ^ 32 →
      (run freq dataReceived (done ++ [r])).met.writeRate.toNat =
        8 * 10 ^ 9 * bytesSince (done ++ [r]) / elapsedNs freq done r)

/-- At a data write a nanosecond has passed since the last reset, and the bytes since then times
8 · 10^9 fit 64 bits. -/
def InRange (freq : Nat) (done : List Received) (r : Received) : Prop :=
  r.buf.length ≠ 1 →
    freq ≤ (r.now - lastReset done) * 10 ^ 9 ∧ bytesSince (done ++ [r]) ≤ 2305843009

theorem bytesSince_le (inRange : Always (InRange freq) done) : bytesSince done ≤ 2305843009 := by
  induction done using List.reverseRecOn with
  | nil => exact Nat.zero_le _
  | append_singleton done r _ =>
      by_cases command : r.buf.length = 1
      · rw [bytesSince_snoc, if_pos command]
        exact Nat.zero_le _
      · exact ((always_snoc.mp inRange).2 command).2

/-- **One write** after writes in the range. -/
theorem rateExact_iff (pos : 0 < freq) (since : lastReset done ≤ r.now)
    (recent : r.buf.length ≠ 1 → r.now < lastReset done + 2 ^ 32)
    (before : Always (InRange freq) done) :
    RateExact freq dataReceived done r ↔ InRange freq done r := by
  refine forall_congr' fun data => ?_
  have few := bytesSince_le before
  have fits := r.fits
  have bytes : bytesSince (done ++ [r]) = bytesSince done + r.buf.length := by
    rw [bytesSince_snoc, if_neg data]
  have len : (newLen (run freq dataReceived done) r).toNat = bytesSince (done ++ [r]) := by
    rw [newLen, UInt32.toNat_add, run_writeLen, UInt32.toNat_ofNat', bytes]
    omega
  have time : (delta freq (run freq dataReceived done) r).toNat = elapsedNs freq done r :=
    toNat_delta since (recent data)
  have passed : elapsedNs freq done r ≠ 0 ↔ freq ≤ (r.now - lastReset done) * 10 ^ 9 := by
    rw [elapsedNs, ne_eq, Nat.div_eq_zero_iff]
    omega
  rw [rate_safe_iff, len, time, passed]
  constructor
  · rintro ⟨⟨product, nanosecond⟩, -⟩
    exact ⟨nanosecond, by omega⟩
  · rintro ⟨nanosecond, most⟩
    have product : 8 * 10 ^ 9 * bytesSince (done ++ [r]) < 2 ^ 64 := by omega
    refine ⟨⟨product, nanosecond⟩, fun fitsRate => ?_⟩
    have safe := rate_safe_iff.mpr ⟨len.symm ▸ product, time.symm ▸ passed.mpr nanosecond⟩
    have value := WordExpr.toNat_eval safe
    rw [rate_exact, len, time] at value
    have stored : (run freq dataReceived (done ++ [r])).met.writeRate =
        .ofNat (rate (newLen (run freq dataReceived done) r)
          (delta freq (run freq dataReceived done) r)).eval.toNat := by
      rw [run_snoc, writeCallback, measure_data data]
      cases dataReceived <;> rfl
    rw [stored, value, UInt32.toNat_ofNat', Nat.mod_eq_of_lt fitsRate]

/-- **The rates of a run** are exact if and only if at each data write a nanosecond has passed
since the last reset and at most 2305843009 bytes were received. -/
theorem rates_exact_iff (freq : Nat) (pos : 0 < freq) (dataReceived : Bool)
    (writes : List Received) (clocked : Always Clocked writes) :
    Always (RateExact freq dataReceived) writes ↔ Always (InRange freq) writes := by
  induction writes using List.reverseRecOn with
  | nil => exact ⟨fun _ => always_nil, fun _ => always_nil⟩
  | append_singleton done r ih =>
      obtain ⟨before, now⟩ := always_snoc.mp clocked
      have since := Nat.le_trans (lastReset_le before) now.later
      rw [always_snoc, always_snoc, ih before]
      exact and_congr_right fun inRange => rateExact_iff pos since now.recent inRange

/-- A reset and a data write. -/
def session (resetNow now : Nat) : List Received :=
  [⟨[1], by decide, resetNow, resetNow⟩, ⟨[1, 2], by decide, now, now⟩]

theorem always_session {P : List Received → Received → Prop} {resetNow now : Nat} :
    Always P (session resetNow now) ↔
      P [] ⟨[1], by decide, resetNow, resetNow⟩ ∧
        P [⟨[1], by decide, resetNow, resetNow⟩] ⟨[1, 2], by decide, now, now⟩ := by
  rw [show session resetNow now = ([] ++ [_]) ++ [_] from rfl, always_snoc, always_snoc]
  exact ⟨fun ⟨⟨_, reset⟩, data⟩ => ⟨reset, data⟩,
    fun ⟨reset, data⟩ => ⟨⟨always_nil, reset⟩, data⟩⟩

theorem clocked_session {resetNow now : Nat} (later : resetNow ≤ now)
    (recent : now < resetNow + 2 ^ 32) : Always Clocked (session resetNow now) :=
  always_session.mpr
    ⟨⟨Nat.zero_le _, fun _ => Nat.le_refl _, fun data => absurd rfl data⟩,
      ⟨later, fun _ => Nat.le_refl _, fun _ => recent⟩⟩

theorem rates_exact_session : Always (RateExact 32768 true) (session 100 500) :=
  (rates_exact_iff 32768 (by decide) true (session 100 500)
    (clocked_session (by decide) (by decide))).mpr
      (always_session.mpr ⟨fun data => absurd rfl data, fun _ => by decide⟩)

/-- **A division by zero**: a write in the cycle of the reset. -/
theorem no_nanosecond_passed :
    ¬ ∀ (freq : Nat) (writes : List Received), 0 < freq → Always Clocked writes →
      Always (RateExact freq true) writes := by
  intro always
  have exact := always_session.mp (always 32768 (session 100 100) (by decide)
    (clocked_session (by decide) (by decide)))
  have safe := rate_safe_iff.mp (exact.2 (by decide)).1
  exact safe.2 rfl

end NcsExp.Throughput.Service
