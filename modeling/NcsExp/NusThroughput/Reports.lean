/-
# NcsExp.NusThroughput.Reports -- the reports of the NUS throughput receivers

`recv_data_process`, the same in the central and in the peripheral, adds up the bytes that it
is handed and reports whenever the total is a multiple of `RECV_THRESHOLD`.  It looks at the
total only between packets, so that a multiple inside a packet goes by unreported, and an
empty packet reports a multiple once more.  The speed is divided by the milliseconds since
the last report, which can be none.

`reports_exact_iff`: in a run there is at every moment one report for each multiple that the
total has reached, and no division by zero, exactly when every packet is in step (`InStep`).
-/
import NcsExp.Theory.History
import Mathlib.Algebra.Ring.Nat
import Mathlib.Data.List.Infix

namespace NcsExp.NusThroughput

open NcsExp.Theory

set_option autoImplicit false

/-! ## The code -/

def THROUGHPUT_PACKETS_TO_SEND : Nat := 1000
def THROUGH_PACKET_SIZE : Nat := 244
def RECV_THRESHOLD_CNT : Nat := 100
def RECV_THRESHOLD : Nat := THROUGH_PACKET_SIZE * RECV_THRESHOLD_CNT
def NUM_SPEED_CACULATIONS : Nat := THROUGHPUT_PACKETS_TO_SEND / RECV_THRESHOLD_CNT

/-- The time and the bytes, and the speed in kbps, which not every report has. -/
structure Report where
  time : UInt32
  received : UInt32
  speed : Option UInt32
  deriving DecidableEq

/-- The variables of `recv_data_process`, and what it has reported. -/
structure Receiver where
  bytesReceived : UInt64
  preTimestamp : UInt32
  curTimestamp : UInt32
  throughputSpeedCaculationCnt : UInt32
  reports : List Report
  deriving DecidableEq

def Receiver.initial : Receiver := ⟨0, 0, 0, 0, []⟩

def Receiver.report (s : Receiver) (speed : Option UInt32) : Receiver :=
  { s with reports := s.reports ++ [⟨s.curTimestamp, s.bytesReceived.toUInt32, speed⟩] }

/-- A packet of `len` bytes, and the milliseconds of the clock when it is handled. -/
structure Packet where
  len : UInt16
  now : Nat
  deriving DecidableEq

/-- `recv_data_process`; `none` where it divides by zero. -/
def recvDataProcess (s : Receiver) (p : Packet) : Option Receiver :=
  let s := { s with bytesReceived := s.bytesReceived + p.len.toUInt64 }
  if s.bytesReceived % .ofNat RECV_THRESHOLD = 0 then
    let s := { s with throughputSpeedCaculationCnt := s.throughputSpeedCaculationCnt + 1 }
    let s := { s with curTimestamp := .ofNat p.now }
    let timeDiff := s.curTimestamp - s.preTimestamp
    let s := { s with preTimestamp := s.curTimestamp }
    if s.throughputSpeedCaculationCnt % .ofNat NUM_SPEED_CACULATIONS ≠ 1 then
      if timeDiff = 0 then none
      else some (s.report (some (.ofNat (RECV_THRESHOLD * 8) / timeDiff)))
    else some (s.report none)
  else some s

/-- The packets one after the other. -/
def receive (packets : List Packet) : Option Receiver := packets.foldlM recvDataProcess .initial

/-! ## The law, and when it holds -/

/-- The bytes of the packets. -/
def total (packets : List Packet) : Nat := (packets.map fun p => p.len.toNat).sum

/-- Nothing was divided by zero, and there is one report for each multiple of the threshold up to
the total. -/
def Exact (packets : List Packet) : Prop :=
  ∃ s, receive packets = some s ∧ s.reports.length = total packets / RECV_THRESHOLD

/-- The packet brings the total, which has 64 bits, to a multiple of the threshold. -/
def Hits (done : List Packet) (p : Packet) : Prop :=
  RECV_THRESHOLD ∣ (total done + p.len.toNat) % 2 ^ 64

instance (done : List Packet) (p : Packet) : Decidable (Hits done p) :=
  inferInstanceAs (Decidable (_ ∣ _))

/-- The clock at the last packet that hit a multiple, from packets in the order of arrival. -/
def lastHit (packets : List Packet) : Nat :=
  (present (fun (c : List Packet × Nat) p => (c.1 ++ [p], if Hits c.1 p then p.now else c.2))
    ([], 0) packets).2

/-- A packet that reaches the next multiple hits one, any other does not; none reaches two. -/
def OnBoundary (done : List Packet) (p : Packet) : Prop :=
  (Hits done p ↔ RECV_THRESHOLD ≤ total done % RECV_THRESHOLD + p.len.toNat) ∧
    total done % RECV_THRESHOLD + p.len.toNat < 2 * RECV_THRESHOLD

/-- Where the multiple that is hit is not the first of ten, the 32 bits of the clock are not those
of the last hit. -/
def Ticked (done : List Packet) (p : Packet) : Prop :=
  Hits done p →
    (total done + p.len.toNat) / RECV_THRESHOLD % 2 ^ 32 % NUM_SPEED_CACULATIONS ≠ 1 →
      p.now % 2 ^ 32 ≠ lastHit done % 2 ^ 32

def InStep (done : List Packet) (p : Packet) : Prop := OnBoundary done p ∧ Ticked done p

/-- Below 2^64 bytes: no packet goes past a multiple, and none is empty at a multiple. -/
theorem onBoundary_iff {done : List Packet} {p : Packet}
    (fits : total done + p.len.toNat < 2 ^ 64) :
    OnBoundary done p ↔
      total done % RECV_THRESHOLD + p.len.toNat ≤ RECV_THRESHOLD ∧
        ¬ (p.len.toNat = 0 ∧ RECV_THRESHOLD ∣ total done) := by
  rw [OnBoundary, Hits, Nat.mod_eq_of_lt fits, RECV_THRESHOLD, THROUGH_PACKET_SIZE,
    RECV_THRESHOLD_CNT]
  omega

/-! ## One packet -/

variable {done packets : List Packet} {p : Packet} {s t : Receiver}

@[simp] theorem total_snoc : total (done ++ [p]) = total done + p.len.toNat := by
  rw [total, total, List.map_append, List.sum_append]
  simp

@[simp] theorem lastHit_snoc :
    lastHit (done ++ [p]) = if Hits done p then p.now else lastHit done := by
  have arrived : (present (fun (c : List Packet × Nat) p =>
      (c.1 ++ [p], if Hits c.1 p then p.now else c.2)) ([], 0) done).1 = done := by
    induction done using List.reverseRecOn with
    | nil => rfl
    | append_singleton done p ih => rw [present_snoc, ih]
  rw [lastHit, present_snoc, arrived]
  rfl

theorem receive_snoc :
    receive (done ++ [p]) = (receive done).bind fun s => recvDataProcess s p := by
  rw [receive, List.foldlM_append]
  exact congrArg _ (funext fun s => bind_pure (recvDataProcess s p))

/-- The variables after the packets. -/
structure Kept (done : List Packet) (s : Receiver) : Prop where
  bytes : s.bytesReceived.toNat = total done % 2 ^ 64
  pre : s.preTimestamp.toNat = lastHit done % 2 ^ 32
  count : s.throughputSpeedCaculationCnt.toNat = s.reports.length % 2 ^ 32

theorem kept_initial : Kept [] .initial := ⟨rfl, rfl, rfl⟩

theorem Kept.bytes_snoc (kept : Kept done s) (p : Packet) :
    (s.bytesReceived + p.len.toUInt64).toNat = (total done + p.len.toNat) % 2 ^ 64 := by
  rw [UInt64.toNat_add, UInt16.toNat_toUInt64, kept.bytes, Nat.mod_add_mod]

theorem Kept.hits_iff (kept : Kept done s) :
    (s.bytesReceived + p.len.toUInt64) % .ofNat RECV_THRESHOLD = 0 ↔ Hits done p := by
  have threshold : (UInt64.ofNat RECV_THRESHOLD).toNat = RECV_THRESHOLD := rfl
  rw [← UInt64.toNat_inj, UInt64.toNat_mod, kept.bytes_snoc, threshold, Hits,
    Nat.dvd_iff_mod_eq_zero]
  rfl

theorem Kept.count_snoc (kept : Kept done s) :
    (s.throughputSpeedCaculationCnt + 1).toNat = (s.reports.length + 1) % 2 ^ 32 := by
  rw [UInt32.toNat_add, kept.count, Nat.mod_add_mod]
  rfl

theorem Kept.first_iff (kept : Kept done s) :
    (s.throughputSpeedCaculationCnt + 1) % .ofNat NUM_SPEED_CACULATIONS = 1 ↔
      (s.reports.length + 1) % 2 ^ 32 % NUM_SPEED_CACULATIONS = 1 := by
  have ten : (UInt32.ofNat NUM_SPEED_CACULATIONS).toNat = NUM_SPEED_CACULATIONS := rfl
  rw [← UInt32.toNat_inj, UInt32.toNat_mod, kept.count_snoc, ten]
  rfl

theorem Kept.stopped_iff (kept : Kept done s) (now : Nat) :
    UInt32.ofNat now - s.preTimestamp = 0 ↔ now % 2 ^ 32 = lastHit done % 2 ^ 32 := by
  rw [← kept.pre, ← UInt32.toNat_ofNat', UInt32.toNat_inj]
  constructor
  · intro zero
    have back := UInt32.sub_add_cancel (.ofNat now) s.preTimestamp
    rw [zero, UInt32.zero_add] at back
    exact back.symm
  · intro same
    rw [same, UInt32.sub_self]

/-- What one packet does: nothing but the addition, a report, or a division by zero. -/
theorem recvDataProcess_cases (kept : Kept done s) (p : Packet) :
    (¬ Hits done p ∧ ∃ t, recvDataProcess s p = some t ∧ Kept (done ++ [p]) t ∧
      t.reports.length = s.reports.length) ∨
    (Hits done p ∧
      ((s.reports.length + 1) % 2 ^ 32 % NUM_SPEED_CACULATIONS ≠ 1 →
        p.now % 2 ^ 32 ≠ lastHit done % 2 ^ 32) ∧
      ∃ t, recvDataProcess s p = some t ∧ Kept (done ++ [p]) t ∧
        t.reports.length = s.reports.length + 1) ∨
    Hits done p ∧ (s.reports.length + 1) % 2 ^ 32 % NUM_SPEED_CACULATIONS ≠ 1 ∧
      p.now % 2 ^ 32 = lastHit done % 2 ^ 32 ∧ recvDataProcess s p = none := by
  have bytes := kept.bytes_snoc p
  rw [← total_snoc] at bytes
  by_cases hits : Hits done p
  · have counted : (s.throughputSpeedCaculationCnt + 1).toNat = (s.reports.length + 1) % 2 ^ 32 :=
      kept.count_snoc
    have reported (speed : Option UInt32) : Kept (done ++ [p])
        ⟨s.bytesReceived + p.len.toUInt64, .ofNat p.now, .ofNat p.now,
          s.throughputSpeedCaculationCnt + 1, s.reports ++ [⟨.ofNat p.now,
            (s.bytesReceived + p.len.toUInt64).toUInt32, speed⟩]⟩ := by
      refine ⟨bytes, ?_, ?_⟩
      · rw [lastHit_snoc, if_pos hits, UInt32.toNat_ofNat']
      · rw [counted, List.length_append, List.length_singleton]
    have more (speed : Option UInt32) : (s.reports ++ [(⟨.ofNat p.now,
        (s.bytesReceived + p.len.toUInt64).toUInt32, speed⟩ : Report)]).length =
          s.reports.length + 1 := by
      rw [List.length_append, List.length_singleton]
    refine Or.inr ?_
    unfold recvDataProcess
    dsimp only
    rw [if_pos (kept.hits_iff.mpr hits)]
    by_cases first : (s.reports.length + 1) % 2 ^ 32 % NUM_SPEED_CACULATIONS = 1
    · rw [if_neg (not_not.mpr (kept.first_iff.mpr first))]
      exact Or.inl ⟨hits, fun other => absurd first other, _, rfl, reported none, more none⟩
    · rw [if_pos (mt kept.first_iff.mp first)]
      by_cases stopped : p.now % 2 ^ 32 = lastHit done % 2 ^ 32
      · rw [if_pos ((kept.stopped_iff p.now).mpr stopped)]
        exact Or.inr ⟨hits, first, stopped, rfl⟩
      · rw [if_neg (mt (kept.stopped_iff p.now).mp stopped)]
        exact Or.inl ⟨hits, fun _ => stopped, _, rfl, reported _, more _⟩
  · refine Or.inl ⟨hits, ?_⟩
    unfold recvDataProcess
    dsimp only
    rw [if_neg (mt kept.hits_iff.mp hits)]
    refine ⟨_, rfl, ⟨bytes, ?_, kept.count⟩, rfl⟩
    rw [lastHit_snoc, if_neg hits]
    exact kept.pre

/-! ## The runs -/

theorem receive_kept {packets : List Packet} {s : Receiver} (received : receive packets = some s) :
    Kept packets s := by
  induction packets using List.reverseRecOn generalizing s with
  | nil =>
      cases received
      exact kept_initial
  | append_singleton done p ih =>
      rw [receive_snoc, Option.bind_eq_some_iff] at received
      obtain ⟨before, first, last⟩ := received
      rcases recvDataProcess_cases (ih first) p with
        ⟨-, t, same, kept, -⟩ | ⟨-, -, t, same, kept, -⟩ | ⟨-, -, -, none_⟩
      · cases last.symm.trans same
        exact kept
      · cases last.symm.trans same
        exact kept
      · rw [none_] at last
        cases last

theorem div_same_iff (t len : Nat) :
    t / RECV_THRESHOLD = (t + len) / RECV_THRESHOLD ↔
      t % RECV_THRESHOLD + len < RECV_THRESHOLD := by
  rw [RECV_THRESHOLD, THROUGH_PACKET_SIZE, RECV_THRESHOLD_CNT]
  omega

theorem div_next_iff (t len : Nat) :
    t / RECV_THRESHOLD + 1 = (t + len) / RECV_THRESHOLD ↔
      RECV_THRESHOLD ≤ t % RECV_THRESHOLD + len ∧
        t % RECV_THRESHOLD + len < 2 * RECV_THRESHOLD := by
  rw [RECV_THRESHOLD, THROUGH_PACKET_SIZE, RECV_THRESHOLD_CNT]
  omega

/-- **One packet**, after packets that were reported exactly. -/
theorem exact_snoc_iff (exact_ : Exact done) : Exact (done ++ [p]) ↔ InStep done p := by
  obtain ⟨s, received, reports⟩ := exact_
  have goes : receive (done ++ [p]) = recvDataProcess s p := by
    rw [receive_snoc, received, Option.bind_some]
  rcases recvDataProcess_cases (receive_kept received) p with
    ⟨hits, t, same, -, length⟩ | ⟨hits, ticks, t, same, -, length⟩ | ⟨hits, other, stopped, none_⟩
  · have law : Exact (done ++ [p]) ↔
        total done / RECV_THRESHOLD = (total done + p.len.toNat) / RECV_THRESHOLD := by
      rw [Exact, goes, same, total_snoc, ← reports, ← length]
      simp
    rw [law, div_same_iff]
    constructor
    · intro below
      refine ⟨⟨iff_of_false hits (Nat.not_le_of_lt below), ?_⟩, fun hit => absurd hit hits⟩
      omega
    · rintro ⟨⟨boundary, -⟩, -⟩
      exact Nat.lt_of_not_le fun reached => hits (boundary.mpr reached)
  · have law : Exact (done ++ [p]) ↔
        total done / RECV_THRESHOLD + 1 = (total done + p.len.toNat) / RECV_THRESHOLD := by
      rw [Exact, goes, same, total_snoc, ← reports, ← length]
      simp
    rw [law]
    rw [reports] at ticks
    constructor
    · intro next
      obtain ⟨reached, once⟩ := (div_next_iff _ _).mp next
      exact ⟨⟨iff_of_true hits reached, once⟩, fun _ => next ▸ ticks⟩
    · rintro ⟨⟨boundary, once⟩, -⟩
      exact (div_next_iff _ _).mpr ⟨boundary.mp hits, once⟩
  · rw [reports] at other
    constructor
    · rintro ⟨t, got, -⟩
      rw [goes, none_] at got
      cases got
    · rintro ⟨⟨boundary, once⟩, ticked⟩
      have next := (div_next_iff _ _).mpr ⟨boundary.mp hits, once⟩
      exact absurd stopped (ticked hits (next ▸ other))

theorem exact_nil : Exact [] := ⟨.initial, rfl, rfl⟩

/-- The law at every moment. -/
def AlwaysExact (packets : List Packet) : Prop := ∀ done, done <+: packets → Exact done

/-- The reports are exact at every moment of a run exactly when every packet is in step. -/
theorem alwaysExact_iff (packets : List Packet) :
    AlwaysExact packets ↔ Always InStep packets := by
  induction packets using List.reverseRecOn with
  | nil =>
      refine iff_of_true (fun done empty => ?_) always_nil
      rw [List.prefix_nil.mp empty]
      exact exact_nil
  | append_singleton packets p ih =>
      have split : AlwaysExact (packets ++ [p]) ↔
          AlwaysExact packets ∧ Exact (packets ++ [p]) := by
        simp only [AlwaysExact, List.prefix_concat_iff, forall_eq_or_imp]
        exact and_comm
      rw [split, always_snoc, ← ih]
      refine and_congr_right fun before => ?_
      exact exact_snoc_iff (before packets (List.prefix_refl _))

/-- Both runs divide nothing by zero, and make the same number of reports. -/
def SameReports (packets others : List Packet) : Prop :=
  ∃ s t, receive packets = some s ∧ receive others = some t ∧ s.reports.length = t.reports.length

theorem Exact.sameReports {others : List Packet} (exact_ : Exact packets) (exact' : Exact others)
    (same : total packets = total others) : SameReports packets others := by
  obtain ⟨s, received, count⟩ := exact_
  obtain ⟨t, received', count'⟩ := exact'
  exact ⟨s, t, received, received', by rw [count, count', same]⟩

/-- **The reports are exact** at every moment of a run exactly when every packet is in step, and two
runs in step that deliver the same bytes make the same number of reports. -/
theorem reports_exact_iff (packets : List Packet) :
    (AlwaysExact packets ↔ Always InStep packets) ∧
      ∀ others, total packets = total others → Always InStep packets → Always InStep others →
        SameReports packets others := by
  refine ⟨alwaysExact_iff packets, fun others same inStep inStep' => ?_⟩
  have exact_ := (alwaysExact_iff packets).mpr inStep packets (List.prefix_refl _)
  have exact' := (alwaysExact_iff others).mpr inStep' others (List.prefix_refl _)
  exact exact_.sameReports exact' same

/-- 102 packets of 241 bytes go past the threshold, and nothing is reported. -/
theorem packets_go_past : ¬ ∀ packets : List Packet,
    packets.Pairwise (fun p q => p.now ≤ q.now) → AlwaysExact packets := by
  intro exact_
  have ordered : (List.replicate 102 (⟨241, 7⟩ : Packet)).Pairwise fun p q => p.now ≤ q.now :=
    List.pairwise_replicate.mpr (Or.inr (Nat.le_refl 7))
  obtain ⟨s, received, count⟩ := exact_ _ ordered _ (List.prefix_refl _)
  have none_ : (receive (List.replicate 102 ⟨241, 7⟩)).map Receiver.reports = some [] := by
    decide +kernel
  rw [received] at none_
  rw [Option.some.inj none_] at count
  exact absurd count (by decide +kernel)

end NcsExp.NusThroughput
