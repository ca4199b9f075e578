/-
# NcsExp.Throughput.Shell -- the numbers that the shell commands take

`data_len_cmd` and `conn_interval_cmd` of `cmds.c` hand their argument to `strtol`, keep
the low 16 bits of the result and check these against a range.  They differ in the range,
in what they store and in what they call it: `numericCmd` is the one function.

`validated_iff`: an argument is taken as it is written if and only if it has nothing
before or after its digits and does not come back into the range modulo 2^16.
-/
import NcsExp.Theory.Numerals

namespace NcsExp.Throughput.Shell

open NcsExp.Theory

set_option autoImplicit false

/-! ## Data -/

/-- `struct bt_le_conn_param`. -/
structure ConnParam where
  intervalMin : UInt16
  intervalMax : UInt16
  latency : UInt16
  timeout : UInt16
  deriving DecidableEq

/-- `struct bt_conn_le_phy_param`. -/
structure PhyParam where
  options : UInt16
  prefTxPhy : UInt8
  prefRxPhy : UInt8
  deriving DecidableEq

/-- `struct bt_conn_le_data_len_param`. -/
structure DataLenParam where
  txMaxLen : UInt16
  txMaxTime : UInt16
  deriving DecidableEq

structure TestParams where
  connParam : ConnParam
  phy : PhyParam
  dataLen : DataLenParam
  deriving DecidableEq

def MIN_CONN_INTERVAL : UInt16 := 6
def MAX_CONN_INTERVAL : UInt16 := 3200
def SUPERVISION_TIMEOUT : UInt16 := 1000

/-- The values of Zephyr's `gap.h`. -/
def BT_GAP_DATA_LEN_DEFAULT : UInt16 := 0x1b
def BT_GAP_DATA_LEN_MAX : UInt16 := 0xfb
def BT_GAP_DATA_TIME_MAX : UInt16 := 0x4290

def SHELL_CMD_HELP_PRINTED : Int := 1
def EINVAL : Int := 22

/-- What a command prints. -/
inductive Line
  | help
  | badParametersCount (cmd : List UInt8)
  | invalidSetting (cmd : List UInt8) (value : UInt16)
  | mustBeBetween (what : String) (min max : UInt16)
  | setTo (what : String) (value : UInt16)
  deriving DecidableEq

structure Reply where
  ret : Int
  params : TestParams
  lines : List Line
  deriving DecidableEq

/-! ## The commands -/

/-- A setting: its range, what the texts call it, and how it is stored. -/
structure Numeric where
  what : String
  min : UInt16
  max : UInt16
  store : UInt16 → TestParams → TestParams

/-- One of the two commands; `name` is `argv[0]`, and `args` what follows it. -/
def numericCmd (cmd : Numeric) (p : TestParams) (name : List UInt8) :
    List (List UInt8) → Reply
  | [] => ⟨SHELL_CMD_HELP_PRINTED, p, [.help]⟩
  | [arg] =>
      let value := UInt16.ofInt (strtol arg)
      if value < cmd.min ∨ value > cmd.max then
        ⟨-EINVAL, p, [.invalidSetting name value, .mustBeBetween cmd.what cmd.min cmd.max]⟩
      else ⟨0, cmd.store value p, [.setTo cmd.what value]⟩
  | _ => ⟨-EINVAL, p, [.badParametersCount name]⟩

def dataLength : Numeric where
  what := "LE Data Packet Length"
  min := BT_GAP_DATA_LEN_DEFAULT
  max := BT_GAP_DATA_LEN_MAX
  store := fun dataLen p =>
    { p with dataLen := { txMaxLen := dataLen, txMaxTime := BT_GAP_DATA_TIME_MAX } }

def connInterval : Numeric where
  what := "Connection interval"
  min := MIN_CONN_INTERVAL
  max := MAX_CONN_INTERVAL
  store := fun interval p =>
    { p with connParam :=
        { intervalMax := interval
          intervalMin := interval
          latency := 0
          timeout := SUPERVISION_TIMEOUT } }

/-- Lines 146-179. -/
def dataLenCmd : TestParams → List UInt8 → List (List UInt8) → Reply := numericCmd dataLength

/-- Lines 181-217. -/
def connIntervalCmd : TestParams → List UInt8 → List (List UInt8) → Reply :=
  numericCmd connInterval

/-! ## As it is written -/

/-- `s` is a decimal representation of `n`, and `n` is in the range. -/
def Numeric.Names (cmd : Numeric) (s : List UInt8) (n : Int) : Prop :=
  Decimal s n ∧ cmd.min.toNat ≤ n ∧ n ≤ cmd.max.toNat

/-- The reply to the argument `s` takes it as it is written. -/
structure Numeric.Validates (cmd : Numeric) (p : TestParams) (s : List UInt8) (r : Reply) :
    Prop where
  success : r.ret = 0 ↔ ∃ n, cmd.Names s n
  stored : ∀ n, cmd.Names s n → ∃ value : UInt16, value.toNat = n ∧ r.params = cmd.store value p
  refused : (¬ ∃ n, cmd.Names s n) → r.ret = -EINVAL ∧ r.params = p

/-- The low 16 bits of the number that `s` begins with are outside the range, or the number is
in it and is all that `s` has. -/
def Numeric.Plain (cmd : Numeric) (s : List UInt8) : Prop :=
  let low : Int := strtol s % 2 ^ 16
  low < cmd.min.toNat ∨ cmd.max.toNat < low ∨
    cmd.min.toNat ≤ strtol s ∧ strtol s ≤ cmd.max.toNat ∧ ∃ n, Decimal s n

variable {cmd : Numeric} {p : TestParams} {name s : List UInt8} {n : Int}

theorem toNat_ofInt_low : ((UInt16.ofInt n).toNat : Int) = n % 2 ^ 16 := by
  rw [UInt16.ofInt, UInt16.toNat_ofNat']
  omega

/-- What is checked is the low 16 bits. -/
theorem accepted_iff :
    ¬ (UInt16.ofInt (strtol s) < cmd.min ∨ UInt16.ofInt (strtol s) > cmd.max) ↔
      cmd.min.toNat ≤ strtol s % 2 ^ 16 ∧ strtol s % 2 ^ 16 ≤ cmd.max.toNat := by
  rw [← toNat_ofInt_low, gt_iff_lt, UInt16.lt_iff_toNat_lt, UInt16.lt_iff_toNat_lt]
  omega

/-- A number in the range is read as it is, and kept whole. -/
theorem strtol_of_names (names : cmd.Names s n) : strtol s = n ∧ strtol s % 2 ^ 16 = n := by
  obtain ⟨decimal, low, high⟩ := names
  have bound := cmd.max.toNat_lt
  rw [strtol_decimal decimal, toLong]
  omega

/-- **One argument** is taken as it is written if and only if it is plain. -/
theorem validates_iff : cmd.Validates p s (numericCmd cmd p name [s]) ↔ cmd.Plain s := by
  by_cases accepted : UInt16.ofInt (strtol s) < cmd.min ∨ UInt16.ofInt (strtol s) > cmd.max
  · -- The command refuses; a number in the range would have been read.
    have outside := mt accepted_iff.mpr (not_not_intro accepted)
    have reply : numericCmd cmd p name [s] = ⟨-EINVAL, p,
        [.invalidSetting name (.ofInt (strtol s)), .mustBeBetween cmd.what cmd.min cmd.max]⟩ :=
      if_pos accepted
    have none : ¬ ∃ n, cmd.Names s n := by
      rintro ⟨n, names⟩
      have read := (strtol_of_names names).2
      obtain ⟨-, low, high⟩ := names
      exact outside (by omega)
    have plain : cmd.Plain s := by
      rw [Numeric.Plain]
      omega
    rw [reply]
    refine ⟨fun _ => plain, fun _ => ⟨⟨fun zero => ?_, fun some => absurd some none⟩,
      fun n names => absurd ⟨n, names⟩ none, fun _ => ⟨rfl, rfl⟩⟩⟩
    have negative : (-EINVAL : Int) ≠ 0 := by decide
    exact (negative zero).elim
  · have inside := accepted_iff.mp accepted
    have reply : numericCmd cmd p name [s] =
        ⟨0, cmd.store (.ofInt (strtol s)) p, [.setTo cmd.what (.ofInt (strtol s))]⟩ :=
      if_neg accepted
    rw [reply]
    constructor
    · rintro ⟨success, -, -⟩
      obtain ⟨n, names⟩ := success.mp rfl
      have read := (strtol_of_names names).1
      exact Or.inr (Or.inr ⟨read ▸ names.2.1, read ▸ names.2.2, n, names.1⟩)
    · intro plain
      have whole : cmd.min.toNat ≤ strtol s ∧ strtol s ≤ cmd.max.toNat ∧ ∃ n, Decimal s n := by
        rcases plain with low | high | whole
        · exact absurd inside.1 (Int.not_le.mpr low)
        · exact absurd inside.2 (Int.not_le.mpr high)
        · exact whole
      obtain ⟨low, high, n, decimal⟩ := whole
      have bound := cmd.max.toNat_lt
      have same : strtol s = n := by
        have read := strtol_decimal decimal
        rw [toLong] at read
        omega
      have names : cmd.Names s n := ⟨decimal, same ▸ low, same ▸ high⟩
      refine ⟨⟨fun _ => ⟨n, names⟩, fun _ => rfl⟩, fun m other => ?_,
        fun none => absurd ⟨n, names⟩ none⟩
      have read := strtol_of_names other
      exact ⟨_, toNat_ofInt_low.trans read.2, rfl⟩

/-- **The arguments of both commands** are taken as they are written if and only if they are
plain. -/
theorem validated_iff (p : TestParams) (name s : List UInt8) :
    (dataLength.Validates p s (dataLenCmd p name [s]) ↔ dataLength.Plain s) ∧
      (connInterval.Validates p s (connIntervalCmd p name [s]) ↔ connInterval.Plain s) :=
  ⟨validates_iff, validates_iff⟩

/-- **65563 is 27** modulo 2^16. -/
theorem comes_back_into_range :
    ¬ ∀ (p : TestParams) (name s : List UInt8),
      dataLength.Validates p s (dataLenCmd p name [s]) := by
  intro validates
  have plain := validates_iff.mp (validates ⟨⟨20, 25, 0, 1000⟩, ⟨0, 2, 2⟩, ⟨251, 0x4290⟩⟩ []
    [54, 53, 53, 54, 51])
  rcases plain with low | high | ⟨-, high, -⟩
  · exact absurd low (by decide)
  · exact absurd high (by decide)
  · exact absurd high (by decide)

/-! ## A session -/

/-- The commands one after the other, each with its arguments. -/
def session (name : List UInt8) (p : TestParams) (cmds : List (Numeric × List (List UInt8))) :
    TestParams :=
  cmds.foldl (fun p c => (numericCmd c.1 p name c.2).params) p

/-- What the procedures of the controller are given. -/
structure Configurable (p : TestParams) : Prop where
  dataLen : BT_GAP_DATA_LEN_DEFAULT ≤ p.dataLen.txMaxLen ∧
    p.dataLen.txMaxLen ≤ BT_GAP_DATA_LEN_MAX
  minimum : MIN_CONN_INTERVAL ≤ p.connParam.intervalMin
  ordered : p.connParam.intervalMin ≤ p.connParam.intervalMax
  maximum : p.connParam.intervalMax ≤ MAX_CONN_INTERVAL

/-- A command changes nothing, or stores a value of its range. -/
theorem numericCmd_params (cmd : Numeric) (p : TestParams) (name : List UInt8)
    (args : List (List UInt8)) :
    (numericCmd cmd p name args).params = p ∨
      ∃ value, cmd.min ≤ value ∧ value ≤ cmd.max ∧
        (numericCmd cmd p name args).params = cmd.store value p := by
  rcases args with _ | ⟨arg, _ | ⟨_, _⟩⟩
  · exact Or.inl rfl
  · rw [numericCmd]
    split
    · exact Or.inl rfl
    · rename_i inside
      rw [not_or, gt_iff_lt, UInt16.not_lt, UInt16.not_lt] at inside
      exact Or.inr ⟨_, inside.1, inside.2, rfl⟩
  · exact Or.inl rfl

/-- **A session** keeps what the controller can be given, whatever is typed. -/
theorem session_configurable {cmds : List (Numeric × List (List UInt8))}
    (ours : ∀ c ∈ cmds, c.1 = dataLength ∨ c.1 = connInterval) (configurable : Configurable p) :
    Configurable (session name p cmds) := by
  induction cmds generalizing p with
  | nil => exact configurable
  | cons c cmds ih =>
      obtain ⟨cmd, args⟩ := c
      obtain ⟨first, rest⟩ := List.forall_mem_cons.mp ours
      refine ih rest ?_
      change Configurable (numericCmd cmd p name args).params
      rcases numericCmd_params cmd p name args with same | ⟨value, low, high, stored⟩
      · rw [same]
        exact configurable
      · rw [stored]
        obtain ⟨dataLen, minimum, ordered, maximum⟩ := configurable
        rcases first with rfl | rfl
        · exact ⟨⟨low, high⟩, minimum, ordered, maximum⟩
        · exact ⟨dataLen, low, UInt16.le_refl _, high⟩

end NcsExp.Throughput.Shell
