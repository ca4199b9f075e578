/-
# NcsExp.IsoBroadcast.Settings -- the settings that the ISO broadcaster asks for

`parse_args` of `broadcaster.c` asks for eight settings, one after the other, and stores
them if all of them are accepted.

* The parsers differ in the size of their buffer, their default and what they accept:
  `parseArg` is the one function, and each parser is it at its own values.
* A console input is the bytes typed so far; `none` means that a parser still waits.
* `parse_args_safe_iff`: nothing is changed or everything is set, and to values that the
  rest of the broadcaster can work with, unless the accepted number of BISes is 0 or
  larger than the number of channels.
-/
import NcsExp.Theory.Strtoul
import Mathlib.Data.List.Forall2

namespace NcsExp.IsoBroadcast

open NcsExp.Theory

set_option autoImplicit false

/-! ## Data -/

/-- `CONFIG_BT_ISO_MAX_CHAN` and `CONFIG_BT_ISO_TX_MTU`.  There is a channel, and the
defaults fit the fields that they are stored in. -/
structure Config where
  maxChan : Nat
  txMtu : Nat
  maxChan_pos : 0 < maxChan
  maxChan_fits : maxChan < 2 ^ 8
  txMtu_fits : txMtu < 2 ^ 16

/-- The limits of Zephyr's `iso.h`, and the values of `gap.h`. -/
def BT_ISO_BROADCAST_RTN_MAX : Nat := 0x1E
def BT_ISO_INTERVAL_MIN : Nat := 0xFF
def BT_ISO_INTERVAL_MAX : Nat := 0xFFFFF
def BT_ISO_LATENCY_MIN : Nat := 0x5
def BT_ISO_LATENCY_MAX : Nat := 0xFA0
def BT_ISO_MAX_SDU : Nat := 0xFFF
def BT_ISO_MAX_GROUP_ISO_COUNT : Nat := 0x1F
def BT_ISO_PACKING_SEQUENTIAL : Nat := 0
def BT_ISO_PACKING_INTERLEAVED : Nat := 1
def BT_ISO_FRAMING_UNFRAMED : Nat := 0
def BT_ISO_FRAMING_FRAMED : Nat := 1
def BT_GAP_LE_PHY_1M : Nat := 1
def BT_GAP_LE_PHY_2M : Nat := 2
def BT_GAP_LE_PHY_CODED : Nat := 4

def EINVAL : Int := 22

/-- `struct bt_iso_chan_io_qos`. -/
structure IsoTxQos where
  sdu : UInt16
  phy : UInt8
  rtn : UInt8
  deriving DecidableEq

/-- `struct bt_iso_big_create_param`. -/
structure BigCreateParam where
  numBis : UInt8
  packing : UInt8
  framing : UInt8
  interval : UInt32
  latency : UInt16
  deriving DecidableEq

structure Settings where
  isoTxQos : IsoTxQos
  bigCreateParam : BigCreateParam
  deriving DecidableEq

/-! ## The parsers -/

/-- `tolower`. -/
def tolower (c : UInt8) : UInt8 := if 65 ≤ c ∧ c ≤ 90 then c + 32 else c

/-- `get_chars`, lines 83-100: what is in the buffer, and the input that is left. -/
def getChars : Nat → List UInt8 → Option (List UInt8 × List UInt8)
  | 0, input => some ([], input)
  | _ + 1, [] => none
  | max + 1, c :: input =>
      let c := tolower c
      if c = 10 ∨ c = 13 then some ([], input)
      else (getChars max input).map fun r => (c :: r.1, r.2)

/-- A setting: the size of its buffer without the terminator, its default, and which numbers
it accepts. -/
structure Setting where
  size : Nat
  default : Nat
  accepts : Nat → Bool

/-- A parser that has read `text`. -/
def Setting.parse (s : Setting) (text : List UInt8) : Int :=
  if text.length = 0 then s.default
  else if s.accepts (strtoul text) then strtoul text
  else -EINVAL

/-- One of the parsers, lines 102-289. -/
def parseArg (s : Setting) (input : List UInt8) : Option (Int × List UInt8) :=
  (getChars s.size input).map fun r => (s.parse r.1, r.2)

def rtnArg : Setting where
  size := 3
  default := 2
  accepts := fun rtn => !decide (rtn > BT_ISO_BROADCAST_RTN_MAX)

def intervalArg : Setting where
  size := 8
  default := 10000
  accepts := fun interval =>
    !(decide (interval < BT_ISO_INTERVAL_MIN) || decide (interval > BT_ISO_INTERVAL_MAX))

def latencyArg : Setting where
  size := 5
  default := 10
  accepts := fun latency =>
    !(decide (latency < BT_ISO_LATENCY_MIN) || decide (latency > BT_ISO_LATENCY_MAX))

def phyArg : Setting where
  size := 2
  default := BT_GAP_LE_PHY_1M
  accepts := fun phy =>
    !(phy != BT_GAP_LE_PHY_1M && phy != BT_GAP_LE_PHY_2M && phy != BT_GAP_LE_PHY_CODED)

/-- `sizeof(iso_data)` is `CONFIG_BT_ISO_TX_MTU`. -/
def sduArg (cfg : Config) : Setting where
  size := 5
  default := cfg.txMtu
  accepts := fun sdu => !decide (sdu > min BT_ISO_MAX_SDU cfg.txMtu)

def packingArg : Setting where
  size := 2
  default := 0
  accepts := fun packing =>
    !(packing != BT_ISO_PACKING_SEQUENTIAL && packing != BT_ISO_PACKING_INTERLEAVED)

def framingArg : Setting where
  size := 2
  default := 0
  accepts := fun framing =>
    !(framing != BT_ISO_FRAMING_UNFRAMED && framing != BT_ISO_FRAMING_FRAMED)

def bisCountArg (cfg : Config) : Setting where
  size := 3
  default := cfg.maxChan
  accepts := fun bisCount => !decide (bisCount > max BT_ISO_MAX_GROUP_ISO_COUNT cfg.maxChan)

def parseRtnArg : List UInt8 → Option (Int × List UInt8) := parseArg rtnArg
def parseIntervalArg : List UInt8 → Option (Int × List UInt8) := parseArg intervalArg
def parseLatencyArg : List UInt8 → Option (Int × List UInt8) := parseArg latencyArg
def parsePhyArg : List UInt8 → Option (Int × List UInt8) := parseArg phyArg
def parseSduArg (cfg : Config) : List UInt8 → Option (Int × List UInt8) := parseArg (sduArg cfg)
def parsePackingArg : List UInt8 → Option (Int × List UInt8) := parseArg packingArg
def parseFramingArg : List UInt8 → Option (Int × List UInt8) := parseArg framingArg
def parseBisCountArg (cfg : Config) : List UInt8 → Option (Int × List UInt8) :=
  parseArg (bisCountArg cfg)

/-! ## `parse_args` -/

/-- What `parse_args` returns, the settings then, and the input that is left. -/
structure Parsed where
  ret : Int
  settings : Settings
  input : List UInt8

/-- `x = parse_x_arg(); if (x < 0) return -EINVAL;` and what follows. -/
def prompt (m : Settings) (parser : List UInt8 → Option (Int × List UInt8)) (input : List UInt8)
    (next : Int → List UInt8 → Option Parsed) : Option Parsed :=
  match parser input with
  | none => none
  | some (x, input) => if x < 0 then some ⟨-EINVAL, m, input⟩ else next x input

/-- `parse_args`, lines 291-354. -/
def parseArgs (cfg : Config) (m : Settings) (input : List UInt8) : Option Parsed :=
  prompt m parseRtnArg input fun rtn input =>
  prompt m parseIntervalArg input fun interval input =>
  prompt m parseLatencyArg input fun latency input =>
  prompt m parsePhyArg input fun phy input =>
  prompt m (parseSduArg cfg) input fun sdu input =>
  prompt m parsePackingArg input fun packing input =>
  prompt m parseFramingArg input fun framing input =>
  prompt m (parseBisCountArg cfg) input fun bisCount input =>
    some {
      ret := 0
      settings :=
        { isoTxQos :=
            { rtn := rtn.toNat.toUInt8
              phy := phy.toNat.toUInt8
              sdu := sdu.toNat.toUInt16 }
          bigCreateParam :=
            { interval := interval.toNat.toUInt32
              latency := latency.toNat.toUInt16
              packing := packing.toNat.toUInt8
              framing := framing.toNat.toUInt8
              numBis := bisCount.toNat.toUInt8 } }
      input := input }

/-! ## The eight texts -/

/-- The settings in the order in which they are asked for. -/
def settingsArgs (cfg : Config) : List Setting :=
  [rtnArg, intervalArg, latencyArg, phyArg, sduArg cfg, packingArg, framingArg, bisCountArg cfg]

/-- The texts that the input has for a list of settings. -/
def readTexts : List Setting → List UInt8 → Option (List (List UInt8) × List UInt8)
  | [], input => some ([], input)
  | s :: rest, input =>
      (getChars s.size input).bind fun r => (readTexts rest r.2).map fun q => (r.1 :: q.1, q.2)

/-- A text is empty or denotes a number that the setting accepts. -/
def Setting.Takes (s : Setting) (text : List UInt8) : Prop :=
  text = [] ∨ s.accepts (strtoul text) = true

/-- The value that a text means. -/
def Setting.value (s : Setting) (text : List UInt8) : Nat :=
  if text = [] then s.default else strtoul text

/-- The settings with eight values. -/
def Settings.ofValues : List Nat → Option Settings
  | [rtn, interval, latency, phy, sdu, packing, framing, bisCount] =>
      some {
        isoTxQos := { rtn := rtn.toUInt8, phy := phy.toUInt8, sdu := sdu.toUInt16 }
        bigCreateParam :=
          { interval := interval.toUInt32, latency := latency.toUInt16, packing := packing.toUInt8
            framing := framing.toUInt8, numBis := bisCount.toUInt8 } }
  | _ => none

variable {cfg : Config} {m : Settings} {s : Setting} {text input : List UInt8}

theorem parse_of_takes (takes : s.Takes text) : s.parse text = s.value text := by
  rw [Setting.parse, Setting.value]
  by_cases empty : text = []
  · simp [empty]
  · have accepted := takes.resolve_left empty
    simp [empty, accepted]

theorem parse_neg_iff : s.parse text < 0 ↔ ¬ s.Takes text := by
  constructor
  · intro negative takes
    rw [parse_of_takes takes] at negative
    omega
  · intro refused
    rw [Setting.Takes, not_or] at refused
    have nonempty : text.length ≠ 0 := fun empty => refused.1 (List.length_eq_zero_iff.mp empty)
    rw [Setting.parse, if_neg nonempty, if_neg refused.2]
    decide

/-- Prompts for a list of settings, and what is done with the values. -/
def promptAll (m : Settings) :
    List Setting → List UInt8 → (List Int → List UInt8 → Option Parsed) → Option Parsed
  | [], input, next => next [] input
  | s :: rest, input, next =>
      prompt m (parseArg s) input fun x input =>
        promptAll m rest input fun xs input => next (x :: xs) input

/-- All that prompts can do: a text is refused, or all of them are taken. -/
theorem promptAll_cases {args : List Setting} {next : List Int → List UInt8 → Option Parsed}
    {p : Parsed} (returned : promptAll m args input next = some p) :
    (p.ret = -EINVAL ∧ p.settings = m ∧
      ∀ texts rest, readTexts args input = some (texts, rest) →
        ¬ List.Forall₂ Setting.Takes args texts) ∨
    ∃ texts rest, readTexts args input = some (texts, rest) ∧
      List.Forall₂ Setting.Takes args texts ∧
      next ((List.zipWith Setting.value args texts).map Int.ofNat) rest = some p := by
  induction args generalizing input next with
  | nil => exact Or.inr ⟨[], input, rfl, .nil, returned⟩
  | cons s args ih =>
      rw [promptAll, prompt, parseArg] at returned
      cases read : getChars s.size input with
      | none =>
          rw [read] at returned
          cases returned
      | some r =>
          obtain ⟨text, rest⟩ := r
          rw [read] at returned
          by_cases takes : s.Takes text
          · have positive : ¬ s.parse text < 0 := fun negative => parse_neg_iff.mp negative takes
            simp only [Option.map_some, if_neg positive] at returned
            rcases ih returned with ⟨ret, settings, refused⟩ | ⟨texts, left, reads, all, last⟩
            · refine Or.inl ⟨ret, settings, ?_⟩
              intro texts left reads all
              simp only [readTexts, read, Option.bind_some, Option.map_eq_some_iff] at reads
              obtain ⟨q, reads, same⟩ := reads
              cases same
              exact refused q.1 q.2 reads (List.forall₂_cons.mp all).2
            · refine Or.inr ⟨text :: texts, left, ?_, .cons takes all, ?_⟩
              · simp only [readTexts, read, Option.bind_some, reads, Option.map_some]
              · rw [parse_of_takes takes] at last
                exact last
          · simp only [Option.map_some, if_pos (parse_neg_iff.mpr takes)] at returned
            cases returned
            refine Or.inl ⟨rfl, rfl, ?_⟩
            intro texts left reads all
            simp only [readTexts, read, Option.bind_some, Option.map_eq_some_iff] at reads
            obtain ⟨q, _, same⟩ := reads
            cases same
            exact takes (List.forall₂_cons.mp all).1

/-- `parse_args` is the eight prompts. -/
theorem parseArgs_eq :
    parseArgs cfg m input =
      promptAll m (settingsArgs cfg) input fun xs input =>
        (Settings.ofValues (xs.map Int.toNat)).map fun settings => ⟨0, settings, input⟩ :=
  rfl

/-- **What `parse_args` does**: it refuses a text and changes nothing, or it sets all eight
settings to what the texts mean. -/
theorem parseArgs_cases {p : Parsed} (returned : parseArgs cfg m input = some p) :
    (p.ret = -EINVAL ∧ p.settings = m ∧
      ∀ texts rest, readTexts (settingsArgs cfg) input = some (texts, rest) →
        ¬ List.Forall₂ Setting.Takes (settingsArgs cfg) texts) ∨
    ∃ texts, readTexts (settingsArgs cfg) input = some (texts, p.input) ∧
      List.Forall₂ Setting.Takes (settingsArgs cfg) texts ∧ p.ret = 0 ∧
      Settings.ofValues (List.zipWith Setting.value (settingsArgs cfg) texts) =
        some p.settings := by
  rw [parseArgs_eq] at returned
  rcases promptAll_cases returned with refused | ⟨texts, rest, reads, all, last⟩
  · exact Or.inl refused
  · obtain ⟨settings, stored, rfl⟩ := Option.map_eq_some_iff.mp last
    refine Or.inr ⟨texts, reads, all, rfl, ?_⟩
    rw [List.map_map] at stored
    have same : Int.toNat ∘ Int.ofNat = id := rfl
    rw [same, List.map_id] at stored
    exact stored

/-! ## Safe settings -/

/-- The rest of the broadcaster works: it goes through `num_bis` of the channels, sends the
first `sdu` bytes of `iso_data`, and subtracts 100 from the interval. -/
structure WellDefined (cfg : Config) (m : Settings) : Prop where
  someBis : 1 ≤ m.bigCreateParam.numBis.toNat
  channels : m.bigCreateParam.numBis.toNat ≤ cfg.maxChan
  sdu : m.isoTxQos.sdu.toNat ≤ cfg.txMtu
  interval : 100 < m.bigCreateParam.interval.toNat

/-- Nothing is changed, or everything is set and well defined. -/
def AllOrNothing (cfg : Config) (m : Settings) (input : List UInt8) (p : Parsed) : Prop :=
  (p.ret = -EINVAL ∧ p.settings = m) ∨
    p.ret = 0 ∧ WellDefined cfg p.settings ∧
      ∃ texts, readTexts (settingsArgs cfg) input = some (texts, p.input) ∧
        Settings.ofValues (List.zipWith Setting.value (settingsArgs cfg) texts) = some p.settings

/-- The number of BISes is a number of channels. -/
def BisCountOk (cfg : Config) (text : List UInt8) : Prop :=
  text = [] ∨ 1 ≤ strtoul text ∧ strtoul text ≤ cfg.maxChan

/-- What is sent fits `iso_data`. -/
theorem sdu_value (takes : (sduArg cfg).Takes text) : (sduArg cfg).value text ≤ cfg.txMtu := by
  rw [Setting.value]
  split
  · exact Nat.le_refl _
  · rename_i nonempty
    have accepted := takes.resolve_left nonempty
    simp only [sduArg, Bool.not_eq_true', decide_eq_false_iff_not] at accepted
    omega

theorem interval_value (takes : intervalArg.Takes text) :
    100 < intervalArg.value text ∧ intervalArg.value text < 2 ^ 32 := by
  rw [Setting.value]
  split
  · decide
  · rename_i nonempty
    have accepted := takes.resolve_left nonempty
    simp only [intervalArg, Bool.not_eq_true', Bool.or_eq_false_iff, decide_eq_false_iff_not]
      at accepted
    rw [BT_ISO_INTERVAL_MIN, BT_ISO_INTERVAL_MAX] at accepted
    omega

/-- Any number up to 31 is accepted. -/
theorem bisCount_value (takes : (bisCountArg cfg).Takes text) :
    (bisCountArg cfg).value text < 2 ^ 8 ∧
      (1 ≤ (bisCountArg cfg).value text ∧ (bisCountArg cfg).value text ≤ cfg.maxChan ↔
        BisCountOk cfg text) := by
  have positive := cfg.maxChan_pos
  have fits := cfg.maxChan_fits
  rw [Setting.value, BisCountOk]
  split
  · rename_i empty
    refine ⟨fits, fun _ => Or.inl empty, fun _ => ⟨positive, Nat.le_refl _⟩⟩
  · rename_i nonempty
    have accepted := takes.resolve_left nonempty
    simp only [bisCountArg, Bool.not_eq_true', decide_eq_false_iff_not] at accepted
    rw [BT_ISO_MAX_GROUP_ISO_COUNT] at accepted
    refine ⟨by omega, Or.inr, fun either => either.resolve_left nonempty⟩

/-- Of the settings that are stored, only the number of BISes can be one that does not work. -/
theorem wellDefined_iff {texts : List (List UInt8)} {stored : Settings}
    (all : List.Forall₂ Setting.Takes (settingsArgs cfg) texts)
    (values : Settings.ofValues (List.zipWith Setting.value (settingsArgs cfg) texts) =
      some stored) :
    WellDefined cfg stored ↔ ∀ bisCount ∈ texts.getLast?, BisCountOk cfg bisCount := by
  simp only [settingsArgs, List.forall₂_cons_left_iff, List.forall₂_nil_left_iff] at all
  obtain ⟨rtn, _, _, ⟨interval, _, takesInterval, ⟨latency, _, _, ⟨phy, _, _, ⟨sdu, _, takesSdu,
    ⟨packing, _, _, ⟨framing, _, _, ⟨bisCount, _, takesBis, rfl, rfl⟩, rfl⟩, rfl⟩, rfl⟩, rfl⟩,
    rfl⟩, rfl⟩, rfl⟩ := all
  cases values
  obtain ⟨long, short⟩ := interval_value takesInterval
  obtain ⟨fits, ok⟩ := bisCount_value takesBis
  have sduBound := sdu_value takesSdu
  have mtu := cfg.txMtu_fits
  have keepInterval : ((intervalArg.value interval).toUInt32).toNat = intervalArg.value interval :=
    Nat.mod_eq_of_lt short
  have keepSdu : (((sduArg cfg).value sdu).toUInt16).toNat = (sduArg cfg).value sdu :=
    Nat.mod_eq_of_lt (Nat.lt_of_le_of_lt sduBound mtu)
  have keepBis : (((bisCountArg cfg).value bisCount).toUInt8).toNat =
      (bisCountArg cfg).value bisCount :=
    Nat.mod_eq_of_lt fits
  have last : (∀ text ∈ [rtn, interval, latency, phy, sdu, packing, framing, bisCount].getLast?,
      BisCountOk cfg text) ↔ BisCountOk cfg bisCount := by
    simp
  rw [last, ← ok]
  constructor
  · rintro ⟨some, channels, _, _⟩
    simp only [keepBis] at some channels
    exact ⟨some, channels⟩
  · rintro ⟨some, channels⟩
    refine ⟨?_, ?_, ?_, ?_⟩
    · simpa only [keepBis] using some
    · simpa only [keepBis] using channels
    · simpa only [keepSdu] using sduBound
    · simpa only [keepInterval] using long

/-- **All or nothing**, unless the eighth text is accepted and is 0 or larger than the number of
channels. -/
theorem parse_args_safe_iff {p : Parsed} (returned : parseArgs cfg m input = some p) :
    AllOrNothing cfg m input p ↔
      ∀ texts rest, readTexts (settingsArgs cfg) input = some (texts, rest) →
        List.Forall₂ Setting.Takes (settingsArgs cfg) texts →
        ∀ bisCount ∈ texts.getLast?, BisCountOk cfg bisCount := by
  rcases parseArgs_cases returned with ⟨ret, same, refused⟩ | ⟨texts, reads, all, ret, values⟩
  · constructor
    · intro _ texts rest reads all
      exact absurd all (refused texts rest reads)
    · intro _
      exact Or.inl ⟨ret, same⟩
  · constructor
    · rintro (⟨refused, _⟩ | ⟨_, wellDefined, _⟩) texts' rest' reads' _
      · rw [ret] at refused
        exact absurd refused (by decide)
      · cases reads.symm.trans reads'
        exact (wellDefined_iff all values).mp wellDefined
    · intro ok
      have wellDefined := (wellDefined_iff all values).mpr (ok texts p.input reads all)
      exact Or.inr ⟨ret, wellDefined, texts, reads, values⟩

/-- One channel and SDUs of 60 bytes. -/
def Config.shipped : Config where
  maxChan := 1
  txMtu := 60
  maxChan_pos := by decide
  maxChan_fits := by decide
  txMtu_fits := by decide

/-- The defaults. -/
def Settings.initial (cfg : Config) : Settings where
  isoTxQos := { sdu := cfg.txMtu.toUInt16, phy := 1, rtn := 2 }
  bigCreateParam :=
    { numBis := cfg.maxChan.toUInt8, packing := 0, framing := 0, interval := 10000, latency := 10 }

/-- Eight empty lines. -/
theorem parse_args_safe_iff_defaults :
    ∃ p, parseArgs .shipped (.initial .shipped) [10, 10, 10, 10, 10, 10, 10, 10] = some p ∧
      (AllOrNothing .shipped (.initial .shipped) [10, 10, 10, 10, 10, 10, 10, 10] p ↔
        ∀ texts rest,
          readTexts (settingsArgs .shipped) [10, 10, 10, 10, 10, 10, 10, 10] =
            some (texts, rest) →
          List.Forall₂ Setting.Takes (settingsArgs .shipped) texts →
          ∀ bisCount ∈ texts.getLast?, BisCountOk .shipped bisCount) :=
  ⟨⟨0, .initial .shipped, []⟩, rfl, parse_args_safe_iff rfl⟩

/-- Zero BISes are accepted. -/
theorem zero_bis_is_set :
    ¬ ∀ (cfg : Config) (m : Settings) (input : List UInt8) (p : Parsed),
      parseArgs cfg m input = some p → AllOrNothing cfg m input p := by
  intro safe
  rcases safe .shipped (.initial .shipped) [10, 10, 10, 10, 10, 10, 10, 48, 10] _ rfl with
    ⟨refused, _⟩ | ⟨_, wellDefined, _⟩
  · exact absurd refused (by decide)
  · exact absurd wellDefined.someBis (by decide)

end NcsExp.IsoBroadcast
