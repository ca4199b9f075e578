/-
# NcsExp.Battery.Sample -- the voltage behind a divider

`battery_sample` scales what the ADC measures by the ratio of the voltage divider, and
`main` reports the result and the level for it until a sample fails.

`val` is multiplied as a 64-bit unsigned number, so that a negative one is a number near
2^64 when it is divided by `output_ohm`.  `sample_exact_iff`: the result is the exact
quotient if `val` is not negative, or if `output_ohm` is a power of two and nothing is
rounded.
-/
import NcsExp.Battery.Level
import Mathlib.Algebra.Group.Int.Defs

namespace NcsExp.Battery

open NcsExp.Theory

set_option autoImplicit false

/-! ## `battery_sample` -/

def ENOENT : Int32 := 2

/-- The two resistances of `struct divider_config`; without a divider `output_ohm` is 0. -/
structure DividerConfig where
  outputOhm : UInt32
  fullOhm : UInt32

/-- Lines 216-217, before the result is an `int`. -/
def scaled (cfg : DividerConfig) (val : Int32) : WordExpr 64 :=
  .div (.mul (.word (.ofInt 64 val.toInt)) (.word cfg.fullOhm.toUInt64.toBitVec))
    (.word cfg.outputOhm.toUInt64.toBitVec)

/-- Lines 198-233; `adcRead` is what `adc_read` returns and `val` what
`adc_raw_to_millivolts` makes of the sample. -/
def batterySample (cfg : DividerConfig) (batteryOk : Bool) (adcRead val : Int32) : Int32 :=
  if batteryOk then
    if adcRead = 0 then
      if cfg.outputOhm ≠ 0 then .ofInt (scaled cfg val).eval.toNat else val
    else adcRead
  else -ENOENT

/-! ## `main` -/

/-- What `main` prints. -/
inductive Report
  | initFailed (rc : Int32)
  | readFailed (battMV : Int32)
  | level (battMV : Int32) (battPptt : Option UInt32)
  | disable (rc : Int32)
  deriving DecidableEq

/-- The loop of lines 70-85 over the samples that are taken, and line 86; `disable` is what
`battery_measure_enable(false)` returns. -/
def sampleLoop (levels : List BatteryLevelPoint) (disable : Int32) : List Int32 → List Report
  | [] => []
  | battMV :: samples =>
      if battMV < 0 then [.readFailed battMV, .disable disable]
      else
        .level battMV (batteryLevelPptt battMV.toUInt32 levels) ::
          sampleLoop levels disable samples

/-- Lines 61-87; `enable` is what `battery_measure_enable(true)` returns. -/
def main (levels : List BatteryLevelPoint) (enable disable : Int32) (samples : List Int32) :
    List Report :=
  if enable ≠ 0 then [.initFailed enable] else sampleLoop levels disable samples

/-- The curve of `main.c` without a divider. -/
def linearLevels : DischargeCurve where
  points := [⟨10000, 3600⟩, ⟨0, 1700⟩]
  falling := by decide
  draining := by decide
  empty := ⟨⟨0, 1700⟩, rfl, rfl⟩

/-- The curve of `main.c` with a divider. -/
def lipoLevels : DischargeCurve where
  points := [⟨10000, 3950⟩, ⟨625, 3550⟩, ⟨0, 3100⟩]
  falling := by decide
  draining := by decide
  empty := ⟨⟨0, 3100⟩, rfl, rfl⟩

/-! ## The exact voltage -/

/-- The voltage before the divider, rounded towards 0. -/
def exactMV (cfg : DividerConfig) (val : Int32) : Int :=
  (val.toInt * cfg.fullOhm.toNat).tdiv cfg.outputOhm.toNat

/-- The sample is the exact voltage, and one at or below 0 is reported neither as a positive
voltage nor as a level above that of an empty battery. -/
def Faithful (c : DischargeCurve) (cfg : DividerConfig) (val : Int32) : Prop :=
  (batterySample cfg true 0 val).toInt = exactMV cfg val ∧
    (val ≤ 0 → ∀ disable battMV battPptt,
      .level battMV battPptt ∈ main c.points 0 disable [batterySample cfg true 0 val] →
      battMV ≤ 0 ∧ battPptt = some 0)

/-! ## Quotients near 2^64 -/

section Quotients

variable {O P : Nat} (pos : 0 < O) (small : O < 2 ^ 32)

include pos small

/-- `2^64 / O` is a multiple of 2^32 for powers of two only. -/
theorem dvd_quotient_iff : 2 ^ 32 ∣ 2 ^ 64 / O ↔ O ∣ 2 ^ 32 := by
  have whole := Nat.div_add_mod (2 ^ 64) O
  have rest := Nat.mod_lt (2 ^ 64) pos
  constructor
  · rintro ⟨m, quotient⟩
    rw [quotient] at whole
    refine ⟨m, ?_⟩
    have product : O * (2 ^ 32 * m) = 2 ^ 32 * (O * m) := by
      rw [Nat.mul_left_comm]
    omega
  · rintro ⟨k, factor⟩
    refine ⟨k, ?_⟩
    have power : 2 ^ 64 = O * (2 ^ 32 * k) := by
      calc 2 ^ 64 = 2 ^ 32 * 2 ^ 32 := by decide
        _ = 2 ^ 32 * (O * k) := by rw [← factor]
        _ = O * (2 ^ 32 * k) := Nat.mul_left_comm ..
    rw [power, Nat.mul_div_cancel_left _ pos]

/-- One more than a multiple of 2^32 it is for one divisor only. -/
theorem eq_of_dvd_pred_quotient (multiple : 2 ^ 32 ∣ 2 ^ 64 / O - 1) : O = 2 ^ 32 - 1 := by
  have whole := Nat.div_add_mod (2 ^ 64) O
  have rest := Nat.mod_lt (2 ^ 64) pos
  have large : 2 ^ 32 ≤ 2 ^ 64 / O := by
    rw [Nat.le_div_iff_mul_le pos]
    omega
  obtain ⟨m, quotient⟩ := multiple
  have quotient : 2 ^ 64 / O = 2 ^ 32 * m + 1 := by omega
  rw [quotient] at whole
  have product : O * (2 ^ 32 * m + 1) = 2 ^ 32 * (O * m) + O := by
    rw [Nat.mul_add, Nat.mul_left_comm, Nat.mul_one]
  -- `O + r` is a positive multiple of 2^32 below 2^33.
  have sum : O * m = 2 ^ 32 - 1 := by omega
  have one : m = 1 := by
    have above : 2 ^ 31 < O := by omega
    rcases Nat.lt_or_ge m 2 with few | many
    · have some_ : m ≠ 0 := by
        rintro rfl
        omega
      omega
    · have too := Nat.mul_le_mul (Nat.le_of_lt above) many
      omega
  rw [one] at sum
  omega

/-- **Negated before or after the division**, modulo 2^32. -/
theorem dvd_quotients_iff (le : P ≤ 2 ^ 64) (whole : O = 2 ^ 32 - 1 → O ∣ P) :
    2 ^ 32 ∣ (2 ^ 64 - P) / O + P / O ↔ O ∣ 2 ^ 32 ∧ O ∣ P := by
  have sum := Nat.add_div (a := 2 ^ 64 - P) (b := P) pos
  have total : 2 ^ 64 - P + P = 2 ^ 64 := Nat.sub_add_cancel le
  rw [total] at sum
  have noCarry : O ∣ P → ¬ O ≤ (2 ^ 64 - P) % O + P % O := by
    intro divides
    have rest := Nat.mod_lt (2 ^ 64 - P) pos
    rw [Nat.mod_eq_zero_of_dvd divides]
    omega
  constructor
  · intro multiple
    by_cases carry : O ≤ (2 ^ 64 - P) % O + P % O
    · rw [if_pos carry] at sum
      have pred : 2 ^ 64 / O - 1 = (2 ^ 64 - P) / O + P / O := by rw [sum, Nat.add_sub_cancel]
      rw [← pred] at multiple
      exact absurd carry (noCarry (whole (eq_of_dvd_pred_quotient pos small multiple)))
    · rw [if_neg carry, Nat.add_zero] at sum
      rw [← sum, dvd_quotient_iff pos small] at multiple
      refine ⟨multiple, ?_⟩
      have rest : ((2 ^ 64 - P) % O + P % O) % O = 0 := by
        rw [← Nat.add_mod, total]
        exact Nat.mod_eq_zero_of_dvd (Nat.dvd_trans multiple (by decide))
      rw [Nat.mod_eq_of_lt (Nat.not_le.mp carry)] at rest
      exact Nat.dvd_of_mod_eq_zero (by omega)
  · rintro ⟨power, divides⟩
    rw [if_neg (noCarry divides), Nat.add_zero] at sum
    rw [← sum]
    exact (dvd_quotient_iff pos small).mpr power

end Quotients

/-! ## The sample -/

/-- A battery without any voltage is empty. -/
theorem batteryLevelPptt_zero (c : DischargeCurve) : batteryLevelPptt 0 c.points = some 0 := by
  obtain ⟨level, computed, interpolates⟩ := battery_level_interpolates c
  obtain ⟨p, last, empty⟩ := c.empty
  have atLast := interpolates.atPoint p (List.mem_of_getLast? last)
  have below := interpolates.monotone 0 p.lvlMV.toUInt32 UInt32.zero_le
  rw [atLast, empty] at below
  rw [(computed 0).1, Option.some.injEq]
  exact UInt32.le_antisymm below UInt32.zero_le

variable {cfg : DividerConfig} {val : Int32}

theorem bmod_eq_iff {n q : Int} (low : -2 ^ 31 ≤ q) (high : q < 2 ^ 31) :
    n.bmod (2 ^ 32) = q ↔ (2 ^ 32 : Int) ∣ n - q := by
  rw [Int.bmod_def]
  split
  · omega
  · omega

theorem ne_zero_of_divider (divider : 0 < cfg.outputOhm) : cfg.outputOhm ≠ 0 := by
  rintro zero
  rw [zero] at divider
  exact absurd divider (by decide)

/-- The result as a difference modulo 2^32. -/
theorem batterySample_eq_iff (divider : 0 < cfg.outputOhm)
    (fits : -2 ^ 31 ≤ exactMV cfg val ∧ exactMV cfg val < 2 ^ 31) :
    (batterySample cfg true 0 val).toInt = exactMV cfg val ↔
      (2 ^ 32 : Int) ∣ (scaled cfg val).eval.toNat - exactMV cfg val := by
  rw [batterySample, if_pos rfl, if_pos rfl, if_pos (ne_zero_of_divider divider),
    Int32.toInt_ofInt]
  exact bmod_eq_iff fits.1 fits.2

/-- A sample that is not negative is multiplied and divided without a wrap. -/
theorem scaled_of_nonneg (divider : 0 < cfg.outputOhm) (nonneg : 0 ≤ val) :
    ((scaled cfg val).eval.toNat : Int) = exactMV cfg val := by
  have nonneg : 0 ≤ val.toInt := Int32.le_iff_toInt_le.mp nonneg
  obtain ⟨v, value⟩ := Int.eq_ofNat_of_zero_le nonneg
  have below := val.toInt_lt
  have word : (BitVec.ofInt 64 val.toInt).toNat = v := by
    rw [value, BitVec.ofInt_natCast, BitVec.toNat_ofNat, Nat.mod_eq_of_lt (by omega)]
  have product : v * cfg.fullOhm.toNat < 2 ^ 64 := by
    have full := cfg.fullOhm.toNat_lt
    calc v * cfg.fullOhm.toNat
        ≤ 2 ^ 31 * 2 ^ 32 := Nat.mul_le_mul (by omega) (Nat.le_of_lt full)
      _ < 2 ^ 64 := by decide
  have safe : (scaled cfg val).Safe := by
    refine ⟨⟨trivial, trivial, ?_⟩, trivial, ?_⟩
    · rw [WordExpr.exact, word]
      exact product
    · exact Nat.ne_of_gt (UInt32.lt_iff_toNat_lt.mp divider)
  rw [WordExpr.toNat_eval safe, scaled]
  simp only [WordExpr.exact, word]
  rw [exactMV, value]
  rfl

/-- A negative one is divided as a number near 2^64. -/
theorem scaled_of_neg {a : Nat} (value : val.toInt = -a) (negative : 0 < a)
    (full : 0 < cfg.fullOhm.toNat) :
    (scaled cfg val).eval.toNat = (2 ^ 64 - a * cfg.fullOhm.toNat) / cfg.outputOhm.toNat := by
  have above := val.le_toInt
  have word : (BitVec.ofInt 64 val.toInt).toNat = 2 ^ 64 - a := by
    rw [value, BitVec.toNat_ofInt]
    omega
  have product : a * cfg.fullOhm.toNat < 2 ^ 64 := by
    have small := cfg.fullOhm.toNat_lt
    calc a * cfg.fullOhm.toNat ≤ 2 ^ 31 * 2 ^ 32 := Nat.mul_le_mul (by omega) (Nat.le_of_lt small)
      _ < 2 ^ 64 := by decide
  have positive := Nat.mul_pos negative full
  have wrapped : (2 ^ 64 - a) * cfg.fullOhm.toNat % 2 ^ 64 = 2 ^ 64 - a * cfg.fullOhm.toNat := by
    have split : (2 ^ 64 - a) * cfg.fullOhm.toNat =
        2 ^ 64 - a * cfg.fullOhm.toNat + 2 ^ 64 * (cfg.fullOhm.toNat - 1) := by
      rw [Nat.sub_mul, Nat.mul_sub]
      omega
    rw [split, Nat.add_mul_mod_self_left, Nat.mod_eq_of_lt (by omega)]
  simp only [scaled, WordExpr.eval, BitVec.toNat_udiv, BitVec.toNat_mul, word]
  rw [← wrapped]
  rfl

theorem exactMV_of_neg {a : Nat} (value : val.toInt = -a) :
    exactMV cfg val = -((a * cfg.fullOhm.toNat / cfg.outputOhm.toNat : Nat) : Int) := by
  rw [exactMV, value, Int.neg_mul, Int.neg_tdiv]
  rfl

/-- An exact sample at or below 0 is no positive voltage and no level. -/
theorem report_of_exact (c : DischargeCurve)
    (exact_ : (batterySample cfg true 0 val).toInt = exactMV cfg val) (low : val ≤ 0)
    {disable battMV : Int32} {battPptt : Option UInt32}
    (reported : .level battMV battPptt ∈
      main c.points 0 disable [batterySample cfg true 0 val]) :
    battMV ≤ 0 ∧ battPptt = some 0 := by
  have low : val.toInt ≤ 0 := Int32.le_iff_toInt_le.mp low
  obtain ⟨a, value⟩ : ∃ a : Nat, val.toInt = -a := ⟨val.toInt.natAbs, by omega⟩
  rw [exactMV_of_neg value] at exact_
  generalize a * cfg.fullOhm.toNat / cfg.outputOhm.toNat = quotient at exact_
  generalize batterySample cfg true 0 val = sample at exact_ reported
  rw [main, if_neg (by simp), sampleLoop] at reported
  by_cases negative : sample < 0
  · simp [if_pos negative] at reported
  · have zero : sample = 0 := by
      have least : (0 : Int) ≤ sample.toInt := Int32.le_iff_toInt_le.mp (Int32.not_lt.mp negative)
      rw [← Int32.toInt_inj, Int32.toInt_zero]
      omega
    rw [if_neg negative, sampleLoop, List.mem_singleton, zero] at reported
    cases reported
    exact ⟨Int32.le_refl _, batteryLevelPptt_zero c⟩

/-- **The exact voltage** behind a divider: for a sample that is not negative, and for any
sample where `output_ohm` is a power of two that divides the product. -/
theorem sample_exact_iff (c : DischargeCurve) (cfg : DividerConfig) (val : Int32)
    (divider : 0 < cfg.outputOhm) (ratio : cfg.outputOhm ≤ cfg.fullOhm)
    (fits : -2 ^ 31 ≤ exactMV cfg val ∧ exactMV cfg val < 2 ^ 31) :
    Faithful c cfg val ↔ 0 ≤ val ∨ cfg.outputOhm.toNat ∣ 2 ^ 32 ∧
      cfg.outputOhm.toNat ∣ val.toInt.natAbs * cfg.fullOhm.toNat := by
  suffices exactness : (batterySample cfg true 0 val).toInt = exactMV cfg val ↔
      0 ≤ val ∨ cfg.outputOhm.toNat ∣ 2 ^ 32 ∧
        cfg.outputOhm.toNat ∣ val.toInt.natAbs * cfg.fullOhm.toNat by
    rw [← exactness, Faithful]
    exact ⟨And.left, fun exact_ => ⟨exact_, fun low _ _ _ => report_of_exact c exact_ low⟩⟩
  rw [batterySample_eq_iff divider fits]
  by_cases nonneg : 0 ≤ val
  · rw [scaled_of_nonneg divider nonneg, Int.sub_self]
    exact ⟨fun _ => Or.inl nonneg, fun _ => Int.dvd_zero _⟩
  · have below : val.toInt < 0 := by
      rw [Int32.le_iff_toInt_le] at nonneg
      exact Int.not_le.mp nonneg
    obtain ⟨a, value, negative⟩ : ∃ a : Nat, val.toInt = -a ∧ 0 < a :=
      ⟨val.toInt.natAbs, by omega, by omega⟩
    have pos := UInt32.lt_iff_toNat_lt.mp divider
    have least := UInt32.le_iff_toNat_le.mp ratio
    have full : 0 < cfg.fullOhm.toNat := Nat.lt_of_lt_of_le pos least
    have product : a * cfg.fullOhm.toNat ≤ 2 ^ 64 := by
      have above := val.le_toInt
      have small := cfg.fullOhm.toNat_lt
      calc a * cfg.fullOhm.toNat
          ≤ 2 ^ 31 * 2 ^ 32 := Nat.mul_le_mul (by omega) (Nat.le_of_lt small)
        _ ≤ 2 ^ 64 := by decide
    have whole : cfg.outputOhm.toNat = 2 ^ 32 - 1 →
        cfg.outputOhm.toNat ∣ a * cfg.fullOhm.toNat := by
      intro largest
      have small := cfg.fullOhm.toNat_lt
      have same : cfg.fullOhm.toNat = cfg.outputOhm.toNat := by omega
      rw [same]
      exact Nat.dvd_mul_left ..
    have quotients := dvd_quotients_iff pos cfg.outputOhm.toNat_lt product whole
    rw [scaled_of_neg value negative full, exactMV_of_neg value, Int.sub_neg,
      or_iff_right nonneg, value, Int.natAbs_neg, Int.natAbs_natCast, ← quotients]
    exact Int.natCast_dvd_natCast (m := 2 ^ 32)

/-- A reading of -1 behind a divider of 1 to 2. -/
theorem sample_exact_iff_half :
    (0 : UInt32) < 32768 ∧ Faithful lipoLevels ⟨32768, 65536⟩ (-1) := by
  refine ⟨by decide, (sample_exact_iff lipoLevels ⟨32768, 65536⟩ (-1) (by decide) (by decide)
    (by decide)).mpr (Or.inr ⟨?_, ?_⟩)⟩
  · decide
  · decide

/-- **A reading of -1 mV is 980495339 mV** behind a divider of 470 to 1470 kΩ. -/
theorem negative_is_positive :
    ¬ ∀ (c : DischargeCurve) (cfg : DividerConfig) (val : Int32), 0 < cfg.outputOhm →
      cfg.outputOhm ≤ cfg.fullOhm → -2 ^ 31 ≤ exactMV cfg val ∧ exactMV cfg val < 2 ^ 31 →
      Faithful c cfg val := by
  intro always
  have faithful := always lipoLevels ⟨470000, 1470000⟩ (-1) (by decide) (by decide) (by decide)
  have reported := (faithful.2 (by decide) 0 980495339 (some 10000) (by decide)).1
  exact absurd reported (by decide)

end NcsExp.Battery
