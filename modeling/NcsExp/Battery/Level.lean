/-
# NcsExp.Battery.Level -- the level of a battery from its voltage

`battery_level_pptt` of `battery.c` goes down a discharge curve to the point at or below
the voltage, and interpolates between that point and the one before it.

* The curve is the list of the points in memory.  A read outside of it has no value
  (`none`), so that a result is one that was computed inside.
* What is returned is kept as the expression that the source has (`batteryLevelReturn`);
  its value is that of the unsigned arithmetic.
* `battery_level_interpolates`: on every discharge curve the result is computed without a
  wrap from the points up to the first one of level 0, meets the points, lies between
  its neighbours and grows with the voltage.
-/
import NcsExp.Theory.WordExpr
import Mathlib.Data.List.Basic

namespace NcsExp.Battery

open NcsExp.Theory

set_option autoImplicit false

/-! ## Data -/

/-- `struct battery_level_point`. -/
structure BatteryLevelPoint where
  lvlPptt : UInt16
  lvlMV : UInt16
  deriving DecidableEq

/-- A discharge curve, as `battery.h` describes it. -/
structure DischargeCurve where
  points : List BatteryLevelPoint
  falling : points.Pairwise fun p q => q.lvlMV < p.lvlMV
  draining : points.Pairwise fun p q => q.lvlPptt ≤ p.lvlPptt
  empty : ∃ p ∈ points.getLast?, p.lvlPptt = 0

/-! ## `battery_level_pptt` -/

/-- The loop of lines 246-249, from the point `pb` on; an iteration that finds no point is a
read outside the curve. -/
def goDown (battMV : UInt32) (curve : List BatteryLevelPoint) : Nat → Nat → Option Nat
  | 0, _ => none
  | fuel + 1, pb =>
      match curve[pb]? with
      | none => none
      | some p =>
          if p.lvlPptt > 0 ∧ battMV < p.lvlMV.toUInt32 then goDown battMV curve fuel (pb + 1)
          else some pb

/-- The difference of two fields, an `int`, where an unsigned operand is needed. -/
def fieldSub (a b : UInt16) : BitVec 32 := .ofInt 32 (a.toNat - b.toNat)

/-- Lines 258-260. -/
def interpolation (battMV : UInt32) (pa pb : BatteryLevelPoint) : WordExpr 32 :=
  .add (.word pb.lvlPptt.toUInt32.toBitVec)
    (.div
      (.mul (.word (fieldSub pa.lvlPptt pb.lvlPptt))
        (.sub (.word battMV.toBitVec) (.word pb.lvlMV.toUInt32.toBitVec)))
      (.word (fieldSub pa.lvlMV pb.lvlMV)))

/-- The expression that is returned, lines 235-261. -/
def batteryLevelReturn (battMV : UInt32) (curve : List BatteryLevelPoint) :
    Option (WordExpr 32) :=
  match curve[0]? with
  | none => none
  | some top =>
      if battMV ≥ top.lvlMV.toUInt32 then some (.word top.lvlPptt.toUInt32.toBitVec)
      else
        match goDown battMV curve (curve.length + 1) 0 with
        | none => none
        | some i =>
            match curve[i]? with
            | none => none
            | some pb =>
                if battMV < pb.lvlMV.toUInt32 then some (.word pb.lvlPptt.toUInt32.toBitVec)
                else
                  match i with
                  | 0 => none
                  | j + 1 => (curve[j]?).map fun pa => interpolation battMV pa pb

def batteryLevelPptt (battMV : UInt32) (curve : List BatteryLevelPoint) : Option UInt32 :=
  (batteryLevelReturn battMV curve).map fun e => .ofBitVec e.eval

example : batteryLevelPptt 2650 [⟨10000, 3600⟩, ⟨0, 1700⟩] = some 5000 := by decide

/-! ## Where the loop stops -/

/-- The loop stops at this point. -/
def stops (battMV : UInt32) (p : BatteryLevelPoint) : Bool :=
  p.lvlPptt == 0 || decide (p.lvlMV.toUInt32 ≤ battMV)

variable {battMV : UInt32} {curve : List BatteryLevelPoint}

theorem lt_mV_iff {p : BatteryLevelPoint} :
    battMV < p.lvlMV.toUInt32 ↔ battMV.toNat < p.lvlMV.toNat :=
  UInt32.lt_iff_toNat_lt

theorem goes_on_iff {p : BatteryLevelPoint} :
    (p.lvlPptt > 0 ∧ battMV < p.lvlMV.toUInt32) ↔ stops battMV p = false := by
  simp only [stops, Bool.or_eq_false_iff, beq_eq_false_iff_ne, decide_eq_false_iff_not,
    UInt32.not_le]
  refine and_congr_left fun _ => ?_
  rw [gt_iff_lt, UInt16.lt_iff_toNat_lt, ne_eq, ← UInt16.toNat_inj]
  exact Nat.pos_iff_ne_zero

/-- **The loop** stops at the first point where it can, if there is one. -/
theorem goDown_eq (inside : curve.findIdx (stops battMV) < curve.length) {fuel pb : Nat}
    (before : pb ≤ curve.findIdx (stops battMV))
    (enough : curve.findIdx (stops battMV) < pb + fuel) :
    goDown battMV curve fuel pb = some (curve.findIdx (stops battMV)) := by
  induction fuel generalizing pb with
  | zero => omega
  | succ fuel ih =>
      have here : pb < curve.length := by omega
      rw [goDown, List.getElem?_eq_getElem here]
      rcases Nat.lt_or_eq_of_le before with early | rfl
      · have on := List.not_of_lt_findIdx early
        dsimp only
        rw [if_pos (goes_on_iff.mpr (by simpa using on))]
        exact ih (by omega) (by omega)
      · have stop := List.findIdx_getElem (w := inside)
        dsimp only
        rw [if_neg fun on => by simp [goes_on_iff.mp on] at stop]

/-- What is returned at the point `pb` where the loop stopped, with the point before it. -/
def returnAt (battMV : UInt32) (pa : Option BatteryLevelPoint) (pb : BatteryLevelPoint) :
    WordExpr 32 :=
  match pa with
  | none => .word pb.lvlPptt.toUInt32.toBitVec
  | some pa =>
      if battMV < pb.lvlMV.toUInt32 then .word pb.lvlPptt.toUInt32.toBitVec
      else interpolation battMV pa pb

/-- The point before the one at `i`. -/
def pointAbove (curve : List BatteryLevelPoint) : Nat → Option BatteryLevelPoint
  | 0 => none
  | i + 1 => curve[i]?

/-- **What is returned** depends on two points only. -/
theorem batteryLevelReturn_eq (inside : curve.findIdx (stops battMV) < curve.length) :
    batteryLevelReturn battMV curve = (curve[curve.findIdx (stops battMV)]?).map
      (returnAt battMV (pointAbove curve (curve.findIdx (stops battMV)))) := by
  obtain ⟨pb, found⟩ : ∃ pb, curve[curve.findIdx (stops battMV)]? = some pb :=
    ⟨_, List.getElem?_eq_getElem inside⟩
  have loop : goDown battMV curve (curve.length + 1) 0 = some _ :=
    goDown_eq inside (Nat.zero_le _) (by omega)
  have nonempty : 0 < curve.length := by omega
  have first : 0 < curve.findIdx (stops battMV) → stops battMV curve[0] = false := by
    intro later
    simpa using List.not_of_lt_findIdx later
  rw [batteryLevelReturn, loop]
  generalize curve.findIdx (stops battMV) = i at inside found first
  rw [List.getElem?_eq_getElem nonempty]
  simp only [found, Option.map_some]
  cases i with
  | zero =>
      rw [List.getElem?_eq_getElem inside, Option.some.injEq] at found
      rw [found, pointAbove, returnAt]
      by_cases above : battMV ≥ pb.lvlMV.toUInt32
      · rw [if_pos above]
      · rw [if_neg above, if_pos (UInt32.not_le.mp above)]
  | succ j =>
      have under := (goes_on_iff.mpr (first (Nat.succ_pos j))).2
      have above : curve[j]? = some curve[j] := List.getElem?_eq_getElem _
      rw [if_neg (UInt32.not_le.mpr under), pointAbove, above, returnAt]
      split
      · rfl
      · simp only [above, Option.map_some]

/-! ## Between two points -/

section Between

variable {pa pb : BatteryLevelPoint}

/-- The level between two points, in the natural numbers. -/
def between (pa pb : BatteryLevelPoint) (mV : Nat) : Nat :=
  pb.lvlPptt.toNat + (pa.lvlPptt.toNat - pb.lvlPptt.toNat) * (mV - pb.lvlMV.toNat) /
    (pa.lvlMV.toNat - pb.lvlMV.toNat)

theorem toNat_fieldSub {a b : UInt16} (le : b ≤ a) :
    (fieldSub a b).toNat = a.toNat - b.toNat := by
  have below := UInt16.le_iff_toNat_le.mp le
  have small := a.toNat_lt
  rw [fieldSub, ← Int.ofNat_sub below, BitVec.ofInt_natCast, BitVec.toNat_ofNat]
  exact Nat.mod_eq_of_lt (by omega)

theorem between_le (falls : pb.lvlMV < pa.lvlMV) (drains : pb.lvlPptt ≤ pa.lvlPptt) {mV : Nat}
    (under : mV ≤ pa.lvlMV.toNat) : between pa pb mV ≤ pa.lvlPptt.toNat := by
  have width := UInt16.lt_iff_toNat_lt.mp falls
  have height := UInt16.le_iff_toNat_le.mp drains
  have share : (pa.lvlPptt.toNat - pb.lvlPptt.toNat) * (mV - pb.lvlMV.toNat) /
      (pa.lvlMV.toNat - pb.lvlMV.toNat) ≤ pa.lvlPptt.toNat - pb.lvlPptt.toNat := by
    apply Nat.div_le_of_le_mul
    rw [Nat.mul_comm]
    exact Nat.mul_le_mul_right _ (by omega)
  rw [between]
  omega

theorem between_self {mV : Nat} (same : mV = pb.lvlMV.toNat) :
    between pa pb mV = pb.lvlPptt.toNat := by
  rw [between, same, Nat.sub_self, Nat.mul_zero, Nat.zero_div, Nat.add_zero]

theorem between_mono {mV mV' : Nat} (le : mV ≤ mV') : between pa pb mV ≤ between pa pb mV' := by
  apply Nat.add_le_add_left
  apply Nat.div_le_div_right
  exact Nat.mul_le_mul_left _ (by omega)

/-- **No step of the interpolation wraps.** -/
theorem interpolation_safe (falls : pb.lvlMV < pa.lvlMV) (drains : pb.lvlPptt ≤ pa.lvlPptt)
    (above : pb.lvlMV.toUInt32 ≤ battMV) (under : battMV < pa.lvlMV.toUInt32) :
    (interpolation battMV pa pb).Safe ∧
      (interpolation battMV pa pb).exact = between pa pb battMV.toNat := by
  have width := UInt16.lt_iff_toNat_lt.mp falls
  have above : pb.lvlMV.toNat ≤ battMV.toNat := UInt32.le_iff_toNat_le.mp above
  have under := lt_mV_iff.mp under
  have exact_ : (interpolation battMV pa pb).exact = between pa pb battMV.toNat := by
    simp only [interpolation, WordExpr.exact, toNat_fieldSub drains,
      toNat_fieldSub (UInt16.le_of_lt falls)]
    rfl
  have product : (pa.lvlPptt.toNat - pb.lvlPptt.toNat) * (battMV.toNat - pb.lvlMV.toNat) <
      2 ^ 32 := by
    have levels := pa.lvlPptt.toNat_lt
    have volts := pa.lvlMV.toNat_lt
    calc (pa.lvlPptt.toNat - pb.lvlPptt.toNat) * (battMV.toNat - pb.lvlMV.toNat)
        ≤ (2 ^ 16 - 1) * (2 ^ 16 - 1) := Nat.mul_le_mul (by omega) (by omega)
      _ < 2 ^ 32 := by decide
  have sum := between_le falls drains (Nat.le_of_lt under)
  have small := pa.lvlPptt.toNat_lt
  refine ⟨⟨trivial, ⟨⟨trivial, ⟨trivial, trivial, above⟩, ?_⟩, trivial, ?_⟩, ?_⟩, exact_⟩
  · simp only [WordExpr.exact, toNat_fieldSub drains]
    exact product
  · simp only [WordExpr.exact, toNat_fieldSub (UInt16.le_of_lt falls)]
    omega
  · show (interpolation battMV pa pb).exact < 2 ^ 32
    rw [exact_]
    omega

/-- The level at the point `pb` where the loop stopped, in the natural numbers. -/
def levelAt (mV : Nat) (pa : Option BatteryLevelPoint) (pb : BatteryLevelPoint) : Nat :=
  match pa with
  | none => pb.lvlPptt.toNat
  | some pa => if mV < pb.lvlMV.toNat then pb.lvlPptt.toNat else between pa pb mV

theorem le_levelAt (mV : Nat) (pa : Option BatteryLevelPoint) (pb : BatteryLevelPoint) :
    pb.lvlPptt.toNat ≤ levelAt mV pa pb := by
  unfold levelAt
  split
  · exact Nat.le_refl _
  · split
    · exact Nat.le_refl _
    · exact Nat.le_add_right ..

theorem levelAt_mono {mV mV' : Nat} (le : mV ≤ mV') (pa : Option BatteryLevelPoint)
    (pb : BatteryLevelPoint) : levelAt mV pa pb ≤ levelAt mV' pa pb := by
  cases pa with
  | none => exact Nat.le_refl _
  | some pa =>
      by_cases below : mV < pb.lvlMV.toNat
      · rw [levelAt, if_pos below]
        exact le_levelAt ..
      · rw [levelAt, levelAt, if_neg below, if_neg (by omega)]
        exact between_mono le

end Between

/-! ## On a discharge curve -/

namespace DischargeCurve

variable (c : DischargeCurve)

/-- The points up to the first one of level 0. -/
def toEmpty : List BatteryLevelPoint :=
  c.points.take (c.points.findIdx (fun p => p.lvlPptt == 0) + 1)

theorem exists_empty : ∃ p ∈ c.points, (p.lvlPptt == 0) = true := by
  obtain ⟨p, last, empty⟩ := c.empty
  exact ⟨p, List.mem_of_getLast? last, by simp [empty]⟩

/-- The loop stops at a point of level 0, if not before. -/
theorem stop_le (battMV : UInt32) :
    c.points.findIdx (stops battMV) ≤ c.points.findIdx (fun p => p.lvlPptt == 0) :=
  List.findIdx_le_findIdx fun p _ empty => by simp [stops, empty]

theorem stop_inside (battMV : UInt32) : c.points.findIdx (stops battMV) < c.points.length :=
  Nat.lt_of_le_of_lt (c.stop_le battMV) (List.findIdx_lt_length_of_exists c.exists_empty)

/-- **Nothing behind the first point of level 0 is read.** -/
theorem batteryLevelReturn_toEmpty (battMV : UInt32) :
    batteryLevelReturn battMV c.toEmpty = batteryLevelReturn battMV c.points := by
  have le := c.stop_le battMV
  have inside := List.findIdx_lt_length_of_exists c.exists_empty
  have length : c.toEmpty.length = c.points.findIdx (fun p => p.lvlPptt == 0) + 1 := by
    rw [toEmpty, List.length_take]
    omega
  have kept : ∀ i ≤ c.points.findIdx (fun p => p.lvlPptt == 0), c.toEmpty[i]? = c.points[i]? := by
    intro i upTo
    rw [toEmpty, List.getElem?_take, if_pos (by omega)]
  have stop : c.toEmpty.findIdx (stops battMV) = c.points.findIdx (stops battMV) := by
    have there : ∃ p ∈ c.toEmpty, stops battMV p = true := by
      obtain ⟨p, found⟩ : ∃ p, c.points[c.points.findIdx (stops battMV)]? = some p :=
        ⟨_, List.getElem?_eq_getElem (c.stop_inside battMV)⟩
      refine ⟨p, ?_, List.findIdx_of_getElem?_eq_some found⟩
      exact List.mem_of_getElem? ((kept _ le).trans found)
    exact (List.IsPrefix.findIdx_eq_of_findIdx_lt_length (List.take_prefix ..)
      (List.findIdx_lt_length_of_exists there)).symm
  have above : pointAbove c.toEmpty (c.points.findIdx (stops battMV)) =
      pointAbove c.points (c.points.findIdx (stops battMV)) := by
    generalize c.points.findIdx (stops battMV) = i at le
    cases i with
    | zero => rfl
    | succ j => exact kept j (by omega)
  rw [batteryLevelReturn_eq (by omega), batteryLevelReturn_eq (c.stop_inside battMV), stop, above,
    kept _ le]

variable {c} {i j : Nat} {p q pa pb : BatteryLevelPoint}

theorem falls (atI : c.points[i]? = some p) (atJ : c.points[j]? = some q) (before : i < j) :
    q.lvlMV < p.lvlMV ∧ q.lvlPptt ≤ p.lvlPptt := by
  obtain ⟨inI, rfl⟩ := List.getElem?_eq_some_iff.mp atI
  obtain ⟨inJ, rfl⟩ := List.getElem?_eq_some_iff.mp atJ
  exact ⟨List.pairwise_iff_getElem.mp c.falling i j inI inJ before,
    List.pairwise_iff_getElem.mp c.draining i j inI inJ before⟩

/-- The computation at a voltage: the loop stops at the point `pb`, the first where it can, and
the level is that of this point and the one above it. -/
structure Computed (c : DischargeCurve) (battMV : UInt32) (i : Nat) (pb : BatteryLevelPoint)
    (level : Nat) : Prop where
  at_ : c.points[i]? = some pb
  stop : stops battMV pb = true
  on : ∀ j q, j < i → c.points[j]? = some q → stops battMV q = false
  level_eq : level = levelAt battMV.toNat (pointAbove c.points i) pb

/-- Below the point where the loop stopped there is only level 0. -/
theorem Computed.empty {level : Nat} (computed : Computed c battMV i pb level)
    (below : battMV.toNat < pb.lvlMV.toNat) : pb.lvlPptt = 0 ∧ level = 0 := by
  have zero : pb.lvlPptt = 0 := by
    have stop := computed.stop
    simp only [stops, Bool.or_eq_true, beq_iff_eq, decide_eq_true_eq] at stop
    refine stop.resolve_right fun above => ?_
    have le : pb.lvlMV.toNat ≤ battMV.toNat := UInt32.le_iff_toNat_le.mp above
    omega
  refine ⟨zero, ?_⟩
  rw [computed.level_eq]
  cases pointAbove c.points i with
  | none => rw [levelAt, zero]; rfl
  | some pa => rw [levelAt, if_pos below, zero]; rfl

theorem Computed.le_above {level : Nat} (computed : Computed c battMV (j + 1) pb level)
    (above : c.points[j]? = some pa) : level ≤ pa.lvlPptt.toNat := by
  obtain ⟨volts, levels⟩ := falls above computed.at_ (Nat.lt_succ_self j)
  have on := computed.on j pa (Nat.lt_succ_self j) above
  have under := lt_mV_iff.mp (goes_on_iff.mpr on).2
  rw [computed.level_eq, pointAbove, above, levelAt]
  split
  · exact UInt16.le_iff_toNat_le.mp levels
  · exact between_le volts levels (Nat.le_of_lt under)

/-- **At every voltage** the level is computed inside the curve, and nothing wraps. -/
theorem exists_computed (c : DischargeCurve) (battMV : UInt32) :
    ∃ e i pb, batteryLevelReturn battMV c.points = some e ∧ e.Safe ∧
      Computed c battMV i pb e.exact := by
  have inside := c.stop_inside battMV
  obtain ⟨pb, found⟩ : ∃ pb, c.points[c.points.findIdx (stops battMV)]? = some pb :=
    ⟨_, List.getElem?_eq_getElem inside⟩
  have on : ∀ j q, j < c.points.findIdx (stops battMV) → c.points[j]? = some q →
      stops battMV q = false := by
    intro j q early atJ
    obtain ⟨_, rfl⟩ := List.getElem?_eq_some_iff.mp atJ
    simpa using List.not_of_lt_findIdx early
  have stop := List.findIdx_of_getElem?_eq_some found
  have return_ := batteryLevelReturn_eq inside
  rw [found, Option.map_some] at return_
  generalize c.points.findIdx (stops battMV) = i at found on return_
  refine ⟨_, i, pb, return_, ?_⟩
  suffices done : (returnAt battMV (pointAbove c.points i) pb).Safe ∧
      (returnAt battMV (pointAbove c.points i) pb).exact =
        levelAt battMV.toNat (pointAbove c.points i) pb from
    ⟨done.1, found, stop, on, done.2⟩
  cases i with
  | zero => exact ⟨trivial, rfl⟩
  | succ j =>
      rw [pointAbove]
      cases above : c.points[j]? with
      | none => exact ⟨trivial, rfl⟩
      | some pa =>
          obtain ⟨volts, levels⟩ := falls above found (Nat.lt_succ_self j)
          have under := (goes_on_iff.mpr (on j pa (Nat.lt_succ_self j) above)).2
          rw [returnAt, levelAt]
          by_cases below : battMV < pb.lvlMV.toUInt32
          · rw [if_pos below, if_pos (lt_mV_iff.mp below)]
            exact ⟨trivial, rfl⟩
          · rw [if_neg below, if_neg fun low => below (lt_mV_iff.mpr low)]
            exact interpolation_safe volts levels (UInt32.not_lt.mp below) under

/-- A higher voltage stops the loop no later. -/
theorem Computed.antitone {battMV' : UInt32} {i' : Nat} {pb' : BatteryLevelPoint}
    {level level' : Nat} (computed : Computed c battMV i pb level)
    (computed' : Computed c battMV' i' pb' level') (le : battMV ≤ battMV') : i' ≤ i := by
  by_contra later
  have on := computed'.on i pb (by omega) computed.at_
  have stop := computed.stop
  simp only [stops, Bool.or_eq_false_iff, Bool.or_eq_true, decide_eq_false_iff_not,
    decide_eq_true_eq] at on stop
  rcases stop with empty | above
  · rw [on.1] at empty
    cases empty
  · exact on.2 (UInt32.le_trans above le)

section Levels

variable {level level' : Nat} (computed : Computed c battMV i pb level)

include computed

theorem Computed.ge_point : pb.lvlPptt.toNat ≤ level := by
  rw [computed.level_eq]
  exact le_levelAt ..

/-- The level at an earlier point is at least that of the result. -/
theorem Computed.le_earlier (atJ : c.points[j]? = some pa) (before : j < i) :
    level ≤ pa.lvlPptt.toNat := by
  obtain ⟨k, rfl⟩ : ∃ k, i = k + 1 := ⟨i - 1, by omega⟩
  have inside := (List.getElem?_eq_some_iff.mp computed.at_).1
  have above : c.points[k]? = some c.points[k] := List.getElem?_eq_getElem _
  have upTo := computed.le_above above
  rcases Nat.lt_or_eq_of_le (Nat.le_of_lt_succ before) with early | rfl
  · exact Nat.le_trans upTo (UInt16.le_iff_toNat_le.mp (falls atJ above early).2)
  · rw [above, Option.some.injEq] at atJ
    rwa [← atJ]

theorem Computed.le_top (top : c.points[0]? = some p) : level ≤ p.lvlPptt.toNat := by
  rcases Nat.eq_zero_or_pos i with rfl | later
  · have same := computed.at_
    rw [top, Option.some.injEq] at same
    rw [computed.level_eq, same]
    exact Nat.le_refl _
  · exact computed.le_earlier top later

/-- The loop stops at the first point or at one below the voltage, unless the level is 0. -/
theorem Computed.at_point (atJ : c.points[j]? = some p) (same : battMV.toNat = p.lvlMV.toNat) :
    level = p.lvlPptt.toNat := by
  have upTo : i ≤ j := by
    by_contra later
    have on := lt_mV_iff.mp (goes_on_iff.mpr (computed.on j p (by omega) atJ)).2
    omega
  rcases Nat.lt_or_eq_of_le upTo with early | rfl
  · obtain ⟨volts, levels⟩ := falls computed.at_ atJ early
    have low := UInt16.lt_iff_toNat_lt.mp volts
    obtain ⟨zero, none_⟩ := computed.empty (by omega)
    have under := UInt16.le_iff_toNat_le.mp levels
    rw [zero] at under
    rw [none_]
    exact (Nat.le_zero.mp under).symm
  · have own := computed.at_
    rw [atJ, Option.some.injEq] at own
    subst own
    rw [computed.level_eq]
    cases pointAbove c.points i with
    | none => rfl
    | some pa =>
        rw [levelAt, if_neg (by omega), between_self same]

/-- Between two neighbours the loop stops at the lower one, or the level is 0. -/
theorem Computed.between (atJ : c.points[j]? = some p) (atNext : c.points[j + 1]? = some q)
    (above : q.lvlMV.toNat < battMV.toNat) (below : battMV.toNat < p.lvlMV.toNat) :
    q.lvlPptt.toNat ≤ level ∧ level ≤ p.lvlPptt.toNat := by
  have upTo : i ≤ j + 1 := by
    by_contra later
    have on := lt_mV_iff.mp (goes_on_iff.mpr (computed.on (j + 1) q (by omega) atNext)).2
    omega
  rcases Nat.lt_or_eq_of_le upTo with early | rfl
  · have low : battMV.toNat < pb.lvlMV.toNat := by
      rcases Nat.lt_or_eq_of_le (Nat.le_of_lt_succ early) with before | rfl
      · have volts := UInt16.lt_iff_toNat_lt.mp (falls computed.at_ atJ before).1
        omega
      · have own := computed.at_
        rw [atJ, Option.some.injEq] at own
        rwa [← own]
    obtain ⟨zero, none_⟩ := computed.empty low
    have under := UInt16.le_iff_toNat_le.mp (falls computed.at_ atNext (by omega)).2
    rw [zero] at under
    rw [none_]
    exact ⟨under, Nat.zero_le _⟩
  · have own := computed.at_
    rw [atNext, Option.some.injEq] at own
    rw [own]
    exact ⟨computed.ge_point, computed.le_above atJ⟩

theorem Computed.mono {battMV' : UInt32} {i' : Nat} {pb' : BatteryLevelPoint}
    (computed' : Computed c battMV' i' pb' level') (le : battMV ≤ battMV') : level ≤ level' := by
  rcases Nat.lt_or_eq_of_le (computed.antitone computed' le) with early | rfl
  · exact Nat.le_trans (computed.le_earlier computed'.at_ early) computed'.ge_point
  · have same := computed.at_
    rw [computed'.at_, Option.some.injEq] at same
    rw [computed.level_eq, computed'.level_eq, same]
    exact levelAt_mono (UInt32.le_iff_toNat_le.mp le) ..

end Levels

end DischargeCurve

/-- What a discharge curve says about the level at every voltage. -/
structure Interpolates (c : DischargeCurve) (level : UInt32 → UInt32) : Prop where
  within : ∀ battMV, ∀ p ∈ c.points.head?, level battMV ≤ p.lvlPptt.toUInt32
  atPoint : ∀ p ∈ c.points, level p.lvlMV.toUInt32 = p.lvlPptt.toUInt32
  between : ∀ battMV i pa pb, c.points[i]? = some pa → c.points[i + 1]? = some pb →
    pb.lvlMV.toUInt32 < battMV → battMV < pa.lvlMV.toUInt32 →
    pb.lvlPptt.toUInt32 ≤ level battMV ∧ level battMV ≤ pa.lvlPptt.toUInt32
  monotone : ∀ battMV battMV', battMV ≤ battMV' → level battMV ≤ level battMV'

/-- **The level of a battery.**  On every discharge curve and at every voltage
`battery_level_pptt` computes a level from the points up to the first one of level 0, with
no wrap and no division by 0; the levels meet the points of the curve, lie between those
of neighbours and grow with the voltage. -/
theorem battery_level_interpolates (c : DischargeCurve) :
    ∃ level : UInt32 → UInt32,
      (∀ battMV, batteryLevelPptt battMV c.points = some (level battMV) ∧
        batteryLevelPptt battMV c.toEmpty = some (level battMV) ∧
        ∃ e, batteryLevelReturn battMV c.points = some e ∧ e.Safe) ∧
      Interpolates c level := by
  choose e i pb returned safe computed using c.exists_computed
  have toNat (battMV : UInt32) : (UInt32.ofBitVec (e battMV).eval).toNat = (e battMV).exact :=
    WordExpr.toNat_eval (safe battMV)
  refine ⟨fun battMV => .ofBitVec (e battMV).eval, fun battMV => ⟨?_, ?_, _, returned battMV,
    safe battMV⟩, ?_, ?_, ?_, ?_⟩
  · rw [batteryLevelPptt, returned, Option.map_some]
  · rw [batteryLevelPptt, c.batteryLevelReturn_toEmpty, returned, Option.map_some]
  · intro battMV p top
    rw [Option.mem_def, List.head?_eq_getElem?] at top
    rw [UInt32.le_iff_toNat_le, toNat]
    exact (computed battMV).le_top top
  · intro p member
    obtain ⟨j, atJ⟩ := List.mem_iff_getElem?.mp member
    rw [← UInt32.toNat_inj, toNat]
    exact (computed _).at_point atJ rfl
  · intro battMV j pa pb atJ atNext above below
    rw [UInt32.le_iff_toNat_le, UInt32.le_iff_toNat_le, toNat]
    exact (computed battMV).between atJ atNext (UInt32.lt_iff_toNat_lt.mp above)
      (UInt32.lt_iff_toNat_lt.mp below)
  · intro battMV battMV' le
    rw [UInt32.le_iff_toNat_le, toNat, toNat]
    exact (computed battMV).mono (computed battMV') le

end NcsExp.Battery
