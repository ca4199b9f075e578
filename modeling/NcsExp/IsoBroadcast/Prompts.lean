/-
# NcsExp.IsoBroadcast.Prompts -- eight lines for eight prompts

`get_chars` stops at a newline, or when its buffer is full; then the newline is left for the
next prompt.  A line is empty, or a constant that the setting accepts and that fits the buffer
of its prompt.

`prompts_aligned_iff`: the eight lines are the answers to the eight prompts if and only if
none of them fills its buffer.
-/
import NcsExp.IsoBroadcast.Settings
import NcsExp.Theory.Numerals

namespace NcsExp.IsoBroadcast

open NcsExp.Theory
open NcsExp.Theory.Strtoul (digit? isDigit)

set_option autoImplicit false

/-! ## Lines -/

/-- A line that answers the prompt of `s`, and the value that it is for. -/
inductive Setting.Answers (s : Setting) : List UInt8 × Nat → Prop
  | empty : s.Answers ([], s.default)
  | constant {line : List UInt8} {n : Nat} (denotes : Constant line n)
      (accepted : s.accepts n = true) (fits : line.length ≤ s.size) : s.Answers (line, n)

/-- The lines, each with its newline. -/
def console (lines : List (List UInt8 × Nat)) : List UInt8 := lines.flatMap fun l => l.1 ++ [10]

/-- The settings as numbers, in the order of the prompts. -/
def Settings.values (m : Settings) : List Nat :=
  [m.isoTxQos.rtn.toNat, m.bigCreateParam.interval.toNat, m.bigCreateParam.latency.toNat,
    m.isoTxQos.phy.toNat, m.isoTxQos.sdu.toNat, m.bigCreateParam.packing.toNat,
    m.bigCreateParam.framing.toNat, m.bigCreateParam.numBis.toNat]

/-- `parse_args` reads exactly the lines, and each setting is the value of its line. -/
def Aligned (cfg : Config) (m : Settings) (lines : List (List UInt8 × Nat))
    (rest : List UInt8) : Prop :=
  ∃ p, parseArgs cfg m (console lines ++ rest) = some p ∧ p.ret = 0 ∧ p.input = rest ∧
    p.settings.values = lines.map Prod.snd

/-! ## Characters -/

variable {cfg : Config} {m : Settings} {s : Setting} {c : UInt8} {line rest : List UInt8}

/-- A letter in upper case. -/
theorem tolower_upper (upper : 65 ≤ c ∧ c ≤ 90) :
    (tolower c).toNat = c.toNat + 32 := by
  have bound := UInt8.le_iff_toNat_le.mp upper.2
  have ninety : (90 : UInt8).toNat = 90 := rfl
  have gap : (32 : UInt8).toNat = 32 := rfl
  rw [tolower, if_pos upper, UInt8.toNat_add]
  omega

theorem tolower_other (other : ¬ (65 ≤ c ∧ c ≤ 90)) : tolower c = c := if_neg other

theorem digit?_tolower (c : UInt8) : digit? (tolower c) = digit? c := by
  by_cases upper : 65 ≤ c ∧ c ≤ 90
  · have lowered := tolower_upper upper
    have low := UInt8.le_iff_toNat_le.mp upper.1
    have high := UInt8.le_iff_toNat_le.mp upper.2
    have sixtyFive : (65 : UInt8).toNat = 65 := rfl
    have ninety : (90 : UInt8).toNat = 90 := rfl
    have isLower : ¬ (48 ≤ tolower c ∧ tolower c ≤ 57) ∧ 97 ≤ tolower c ∧ tolower c ≤ 122 := by
      have names : (57 : UInt8).toNat = 57 ∧ (97 : UInt8).toNat = 97 ∧
        (122 : UInt8).toNat = 122 := by decide
      simp only [UInt8.le_iff_toNat_le]
      omega
    have notDigit : ¬ (48 ≤ c ∧ c ≤ 57) ∧ ¬ (97 ≤ c ∧ c ≤ 122) := by
      have names : (57 : UInt8).toNat = 57 ∧ (97 : UInt8).toNat = 97 := by decide
      simp only [UInt8.le_iff_toNat_le]
      omega
    have value : (tolower c).toNat - 87 = c.toNat - 55 := by omega
    rw [digit?, if_neg isLower.1, if_pos isLower.2, digit?, if_neg notDigit.1, if_neg notDigit.2,
      if_pos upper, value]
  · rw [tolower_other upper]

theorem tolower_eq_zero (c : UInt8) : tolower c = 48 ↔ c = 48 := by
  by_cases upper : 65 ≤ c ∧ c ≤ 90
  · have lowered := tolower_upper upper
    have low := UInt8.le_iff_toNat_le.mp upper.1
    have names : (65 : UInt8).toNat = 65 ∧ (48 : UInt8).toNat = 48 := by decide
    rw [← UInt8.toNat_inj, ← UInt8.toNat_inj]
    omega
  · rw [tolower_other upper]

theorem tolower_hex (c : UInt8) (hex : c = 120 ∨ c = 88) : tolower c = 120 ∨ tolower c = 88 := by
  rcases hex with rfl | rfl
  · exact Or.inl rfl
  · exact Or.inl rfl

/-- The line in lower case is the same constant. -/
theorem constant_tolower {n : Nat} (denotes : Constant line n) : Constant (line.map tolower) n :=
  denotes.map digit?_tolower tolower_eq_zero tolower_hex

/-- `get_chars` does not stop at the character. -/
def Inner (c : UInt8) : Prop := ¬ (tolower c = 10 ∨ tolower c = 13)

instance (c : UInt8) : Decidable (Inner c) := inferInstanceAs (Decidable (¬ _))

theorem inner_of_isDigit {base : Nat} (digit : isDigit base c) : Inner c := by
  rintro (newline | carriage)
  · rw [isDigit, ← digit?_tolower, newline] at digit
    cases digit
  · rw [isDigit, ← digit?_tolower, carriage] at digit
    cases digit

theorem inner_of_constant {n : Nat} (denotes : Constant line n) : ∀ c ∈ line, Inner c := by
  have digits {base : Nat} {ds : List UInt8} (all : ∀ d ∈ ds, isDigit base d) :
      ∀ d ∈ ds, Inner d := fun d mem => inner_of_isDigit (all d mem)
  have zero : Inner 48 := by decide
  cases denotes with
  | decimal _ all => exact digits all
  | octal all => exact List.forall_mem_cons.mpr ⟨zero, digits all⟩
  | hexadecimal hex all =>
      refine List.forall_mem_cons.mpr ⟨zero, List.forall_mem_cons.mpr ⟨?_, digits all⟩⟩
      rcases hex with rfl | rfl
      · decide
      · decide

/-! ## One prompt -/

/-- A line that is shorter than the buffer is read with its newline. -/
theorem getChars_short (rest : List UInt8) {max : Nat} (inner : ∀ c ∈ line, Inner c)
    (short : line.length < max) :
    getChars max (line ++ 10 :: rest) = some (line.map tolower, rest) := by
  induction line generalizing max with
  | nil =>
      obtain ⟨max, rfl⟩ : ∃ k, max = k + 1 := ⟨max - 1, by simp at short; omega⟩
      rfl
  | cons c line ih =>
      obtain ⟨first, others⟩ := List.forall_mem_cons.mp inner
      rw [List.length_cons] at short
      obtain ⟨max, rfl⟩ : ∃ k, max = k + 1 := ⟨max - 1, by omega⟩
      rw [List.cons_append, getChars]
      simp only [if_neg first, ih others (by omega : line.length < max), Option.map_some,
        List.map_cons]

/-- **A line that fills the buffer** is read without its newline. -/
theorem getChars_full {max : Nat} (inner : ∀ c ∈ line, Inner c) (full : line.length = max) :
    getChars max (line ++ rest) = some (line.map tolower, rest) := by
  induction line generalizing max with
  | nil =>
      subst full
      rfl
  | cons c line ih =>
      obtain ⟨first, others⟩ := List.forall_mem_cons.mp inner
      subst full
      rw [List.length_cons, List.cons_append, getChars]
      simp only [if_neg first, ih others rfl, Option.map_some, List.map_cons]

/-- A prompt takes at most one newline. -/
theorem getChars_newlines {max : Nat} {input text : List UInt8}
    (read : getChars max input = some (text, rest)) : input.count 10 ≤ rest.count 10 + 1 := by
  induction max generalizing input text with
  | zero =>
      cases read
      exact Nat.le_succ _
  | succ max ih =>
      cases input with
      | nil => cases read
      | cons c input =>
          rw [getChars] at read
          split at read
          · cases read
            rw [List.count_cons]
            split <;> omega
          · rename_i inner
            obtain ⟨⟨text, rest⟩, more, same⟩ := Option.map_eq_some_iff.mp read
            cases same
            have other : c ≠ 10 := by
              rintro rfl
              exact inner (Or.inl rfl)
            rw [List.count_cons_of_ne other]
            exact ih more

/-! ## All prompts -/

/-- The characters of an answer, and its length. -/
theorem answers_inner {l : List UInt8 × Nat} (answers : s.Answers l) :
    (∀ c ∈ l.1, Inner c) ∧ l.1.length ≤ s.size := by
  cases answers with
  | empty => exact ⟨by simp, Nat.zero_le _⟩
  | constant denotes _ fits => exact ⟨inner_of_constant denotes, fits⟩

theorem readTexts_newlines {args : List Setting} {input : List UInt8} {texts : List (List UInt8)}
    (read : readTexts args input = some (texts, rest)) :
    input.count 10 ≤ rest.count 10 + args.length := by
  induction args generalizing input texts with
  | nil =>
      cases read
      exact Nat.le_refl _
  | cons s args ih =>
      rw [readTexts] at read
      obtain ⟨⟨text, left⟩, first, more⟩ := Option.bind_eq_some_iff.mp read
      obtain ⟨⟨texts, rest⟩, others, same⟩ := Option.map_eq_some_iff.mp more
      cases same
      have one : input.count 10 ≤ left.count 10 + 1 := getChars_newlines first
      have all : left.count 10 ≤ rest.count 10 + args.length := ih others
      change input.count 10 ≤ rest.count 10 + (args.length + 1)
      omega

theorem console_cons (l : List UInt8 × Nat) (lines : List (List UInt8 × Nat)) :
    console (l :: lines) ++ rest = l.1 ++ 10 :: (console lines ++ rest) := by
  simp [console]

/-- The newlines of the lines. -/
theorem count_console {args : List Setting} {lines : List (List UInt8 × Nat)}
    (answers : List.Forall₂ Setting.Answers args lines) :
    args.length ≤ (console lines).count 10 := by
  induction answers with
  | nil => exact Nat.le_refl _
  | @cons s l args lines _ _ ih =>
      rw [← List.append_nil (console (l :: lines)), console_cons, List.append_nil,
        List.count_append, List.count_cons_self, List.length_cons]
      omega

/-- **Shorter lines** are read one by one. -/
theorem readTexts_short {args : List Setting} {lines : List (List UInt8 × Nat)}
    (answers : List.Forall₂ Setting.Answers args lines)
    (short : List.Forall₂ (fun s l => l.1.length < s.size) args lines) :
    readTexts args (console lines ++ rest) =
      some (lines.map fun l => l.1.map tolower, rest) := by
  induction answers with
  | nil => rfl
  | @cons s l args lines first _ ih =>
      obtain ⟨shortFirst, shortOthers⟩ := List.forall₂_cons.mp short
      have one := getChars_short (console lines ++ rest) (answers_inner first).1 shortFirst
      rw [console_cons, readTexts, one]
      simp only [Option.bind_some, ih shortOthers, Option.map_some, List.map_cons]

/-- **Lines that are read to their end** are shorter: the newline of one that is not is read by
the next prompt, and there is one newline too many. -/
theorem short_of_readTexts {args : List Setting} {lines : List (List UInt8 × Nat)}
    {texts : List (List UInt8)} (answers : List.Forall₂ Setting.Answers args lines)
    (read : readTexts args (console lines ++ rest) = some (texts, rest)) :
    List.Forall₂ (fun s l => l.1.length < s.size) args lines := by
  induction answers generalizing texts with
  | nil => exact .nil
  | @cons s l args lines first others ih =>
      obtain ⟨inner, fits⟩ := answers_inner first
      rw [console_cons, readTexts] at read
      rcases Nat.lt_or_eq_of_le fits with short | full
      · rw [getChars_short _ inner short] at read
        obtain ⟨⟨texts, left⟩, more, same⟩ := Option.map_eq_some_iff.mp read
        cases same
        exact .cons short (ih more)
      · rw [getChars_full inner full] at read
        obtain ⟨⟨texts, left⟩, more, same⟩ := Option.map_eq_some_iff.mp read
        cases same
        have most : (10 :: (console lines ++ left)).count 10 ≤ left.count 10 + args.length :=
          readTexts_newlines more
        have least := count_console others
        rw [List.count_cons_self, List.count_append] at most
        omega

/-! ## `parse_args` -/

/-- Texts that are taken are handed on with their values. -/
theorem promptAll_of_takes {args : List Setting} {input : List UInt8} {texts : List (List UInt8)}
    (next : List Int → List UInt8 → Option Parsed)
    (read : readTexts args input = some (texts, rest))
    (takes : List.Forall₂ Setting.Takes args texts) :
    promptAll m args input next =
      next ((List.zipWith Setting.value args texts).map Int.ofNat) rest := by
  induction takes generalizing input next with
  | nil =>
      cases read
      rfl
  | @cons s text args texts first others ih =>
      rw [readTexts] at read
      obtain ⟨⟨text', left⟩, one, more⟩ := Option.bind_eq_some_iff.mp read
      obtain ⟨⟨texts', rest'⟩, all, same⟩ := Option.map_eq_some_iff.mp more
      cases same
      have positive : ¬ s.parse text' < 0 := fun negative => parse_neg_iff.mp negative first
      rw [promptAll, prompt, parseArg, one]
      simp only [Option.map_some]
      rw [if_neg positive, ih _ all, parse_of_takes first]
      rfl

/-- The default and everything that is accepted is less than `n`. -/
def Setting.Below (s : Setting) (n : Nat) : Prop :=
  s.default < n ∧ ∀ k, s.accepts k = true → k < n

/-- What the fields of the settings can hold, in the order of the prompts. -/
def fieldBounds : List Nat := [2 ^ 8, 2 ^ 32, 2 ^ 16, 2 ^ 8, 2 ^ 16, 2 ^ 8, 2 ^ 8, 2 ^ 8]

/-- **Every setting fits its field.** -/
theorem settingsArgs_below : List.Forall₂ Setting.Below (settingsArgs cfg) fieldBounds := by
  have mtu := cfg.txMtu_fits
  have chan := cfg.maxChan_fits
  simp only [settingsArgs, fieldBounds, List.forall₂_cons, List.forall₂_nil_left_iff, and_true,
    Setting.Below, rtnArg, intervalArg, latencyArg, phyArg, sduArg, packingArg, framingArg,
    bisCountArg, Bool.not_eq_true', Bool.or_eq_false_iff, Bool.and_eq_false_iff,
    bne_eq_false_iff_eq, decide_eq_false_iff_not]
  rw [BT_ISO_BROADCAST_RTN_MAX, BT_ISO_INTERVAL_MIN, BT_ISO_INTERVAL_MAX, BT_ISO_LATENCY_MIN,
    BT_ISO_LATENCY_MAX, BT_GAP_LE_PHY_1M, BT_GAP_LE_PHY_2M, BT_GAP_LE_PHY_CODED, BT_ISO_MAX_SDU,
    BT_ISO_PACKING_SEQUENTIAL, BT_ISO_PACKING_INTERLEAVED, BT_ISO_FRAMING_UNFRAMED,
    BT_ISO_FRAMING_FRAMED, BT_ISO_MAX_GROUP_ISO_COUNT]
  refine ⟨⟨by omega, ?_⟩, ⟨by omega, ?_⟩, ⟨by omega, ?_⟩, ⟨by omega, ?_⟩, ⟨by omega, ?_⟩,
    ⟨by omega, ?_⟩, ⟨by omega, ?_⟩, ⟨by omega, ?_⟩⟩
  all_goals
    intro k accepted
    omega

/-- An answer is taken, in lower case, for its value. -/
theorem answers_takes {n : Nat} (below : s.Below n) (word : n ≤ 2 ^ 32) {l : List UInt8 × Nat}
    (answers : s.Answers l) :
    s.Takes (l.1.map tolower) ∧ s.value (l.1.map tolower) = l.2 ∧ l.2 < n := by
  cases answers with
  | empty => exact ⟨Or.inl rfl, rfl, below.1⟩
  | @constant line k denotes accepted _ =>
      have small := below.2 k accepted
      have read := strtoul_constant (constant_tolower denotes) (by omega)
      refine ⟨Or.inr (by rw [read]; exact accepted), ?_, small⟩
      rw [Setting.value, read]
      refine if_neg fun empty => ?_
      have nothing : line = [] := List.map_eq_nil_iff.mp empty
      subst nothing
      cases denotes

theorem answers_taken {args : List Setting} {bounds : List Nat} {lines : List (List UInt8 × Nat)}
    (below : List.Forall₂ Setting.Below args bounds) (word : ∀ n ∈ bounds, n ≤ 2 ^ 32)
    (answers : List.Forall₂ Setting.Answers args lines) :
    List.Forall₂ Setting.Takes args (lines.map fun l => l.1.map tolower) ∧
      List.zipWith Setting.value args (lines.map fun l => l.1.map tolower) = lines.map Prod.snd ∧
      List.Forall₂ (· < ·) (lines.map Prod.snd) bounds := by
  induction below generalizing lines with
  | nil =>
      cases answers
      exact ⟨.nil, rfl, .nil⟩
  | @cons s n args bounds first _ ih =>
      cases answers with
      | @cons _ l _ lines one others =>
          obtain ⟨wordFirst, wordOthers⟩ := List.forall_mem_cons.mp word
          obtain ⟨takes, value, small⟩ := answers_takes first wordFirst one
          obtain ⟨allTakes, values, allSmall⟩ := ih wordOthers others
          refine ⟨.cons takes allTakes, ?_, .cons small allSmall⟩
          rw [List.map_cons, List.zipWith_cons_cons, value, values, List.map_cons]

/-- Values that fit their fields are stored as they are. -/
theorem exists_values {values : List Nat} (small : List.Forall₂ (· < ·) values fieldBounds) :
    ∃ stored, Settings.ofValues values = some stored ∧ stored.values = values := by
  simp only [fieldBounds, List.forall₂_cons_right_iff, List.forall₂_nil_right_iff] at small
  obtain ⟨rtn, _, rtnFits, ⟨interval, _, intervalFits, ⟨latency, _, latencyFits, ⟨phy, _, phyFits,
    ⟨sdu, _, sduFits, ⟨packing, _, packingFits, ⟨framing, _, framingFits, ⟨bisCount, _, bisFits,
    rfl, rfl⟩, rfl⟩, rfl⟩, rfl⟩, rfl⟩, rfl⟩, rfl⟩, rfl⟩ := small
  refine ⟨_, rfl, ?_⟩
  simp only [Settings.values, Nat.toUInt8_eq, Nat.toUInt16_eq, Nat.toUInt32_eq, UInt8.toNat_ofNat',
    UInt16.toNat_ofNat', UInt32.toNat_ofNat', Nat.mod_eq_of_lt rtnFits,
    Nat.mod_eq_of_lt intervalFits, Nat.mod_eq_of_lt latencyFits, Nat.mod_eq_of_lt phyFits,
    Nat.mod_eq_of_lt sduFits, Nat.mod_eq_of_lt packingFits, Nat.mod_eq_of_lt framingFits,
    Nat.mod_eq_of_lt bisFits]

/-- **The prompts and the lines** are aligned if and only if every line is shorter than the
buffer of its prompt. -/
theorem prompts_aligned_iff (cfg : Config) (m : Settings) (lines : List (List UInt8 × Nat))
    (rest : List UInt8) (answers : List.Forall₂ Setting.Answers (settingsArgs cfg) lines) :
    Aligned cfg m lines rest ↔
      List.Forall₂ (fun s l => l.1.length < s.size) (settingsArgs cfg) lines := by
  constructor
  · rintro ⟨p, returned, success, input, -⟩
    rcases parseArgs_cases returned with ⟨failed, -⟩ | ⟨texts, read, -⟩
    · rw [success] at failed
      exact absurd failed (by decide)
    · rw [input] at read
      exact short_of_readTexts answers read
  · intro short
    obtain ⟨takes, values, small⟩ := answers_taken settingsArgs_below (by decide) answers
    obtain ⟨stored, ofValues, same⟩ := exists_values small
    refine ⟨⟨0, stored, rest⟩, ?_, rfl, rfl, same⟩
    rw [parseArgs_eq, promptAll_of_takes _ (readTexts_short answers short) takes, values,
      List.map_map]
    have keep : Int.toNat ∘ Int.ofNat = id := rfl
    rw [keep, List.map_id, ofValues]
    rfl

/-- An RTN of 4 and a latency of 5, and enter for the others. -/
theorem prompts_aligned_two :
    Aligned .shipped (.initial .shipped)
      [([52], 4), ([], 10000), ([48, 120, 53], 5), ([], 1), ([], 60), ([], 0), ([], 0), ([], 1)]
      [] := by
  have four : Constant [52] 4 := .decimal (by decide) (List.forall_mem_singleton.mpr rfl)
  have five : Constant [48, 120, 53] 5 :=
    .hexadecimal (Or.inl rfl) (List.forall_mem_singleton.mpr rfl)
  refine (prompts_aligned_iff .shipped (.initial .shipped) _ [] ?_).mpr ?_
  · exact .cons (.constant four rfl (by decide)) (.cons .empty (.cons
      (.constant five rfl (by decide)) (.cons .empty (.cons .empty (.cons .empty (.cons .empty
      (.cons .empty .nil)))))))
  · simp [settingsArgs, rtnArg, intervalArg, latencyArg, phyArg, sduArg, packingArg, framingArg,
      bisCountArg]

/-- **A line too many**: the RTN as `0x2` leaves its newline to the interval. -/
theorem full_buffer_shifts_lines :
    ¬ ∀ (cfg : Config) (m : Settings) (lines : List (List UInt8 × Nat)) (rest : List UInt8),
      List.Forall₂ Setting.Answers (settingsArgs cfg) lines → Aligned cfg m lines rest := by
  intro aligned
  have two : Constant [48, 120, 50] 2 :=
    .hexadecimal (Or.inl rfl) (List.forall_mem_singleton.mpr rfl)
  obtain ⟨p, returned, -, input, -⟩ := aligned .shipped (.initial .shipped)
    [([48, 120, 50], 2), ([], 10000), ([], 10), ([], 1), ([], 60), ([], 0), ([], 0), ([], 1)] []
    (.cons (.constant two rfl (by decide)) (.cons .empty (.cons .empty (.cons .empty (.cons .empty
      (.cons .empty (.cons .empty (.cons .empty .nil))))))))
  have left : (parseArgs .shipped (.initial .shipped) (console [([48, 120, 50], 2), ([], 10000),
      ([], 10), ([], 1), ([], 60), ([], 0), ([], 0), ([], 1)] ++ [])).map Parsed.input =
      some [10] := by decide
  rw [returned, Option.map_some, input] at left
  cases left

end NcsExp.IsoBroadcast
