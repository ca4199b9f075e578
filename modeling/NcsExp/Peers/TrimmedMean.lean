/-
# NcsExp.Peers.TrimmedMean -- the distance filter over a field

`data_collect`, `filter_result` and `average_cacu` of `peer.c`, with the samples in any type
that has what the code uses of `float`; at `Float32` they are those of the model
(`filterResult_eq`).  `filt_buf` is the first six cells of a memory.

`filter_sound` is about an ordered field and an unbounded sequence of samples: what the
filter puts out, when, what it writes, and what two outliers in a window can do.
-/
import NcsExp.Peers.Model
import NcsExp.Theory.OrderStatistics
import Mathlib.Algebra.Order.Field.Basic
import Mathlib.Algebra.Order.Field.Rat
import Mathlib.Tactic.Linarith

namespace NcsExp.Peers.Trimmed

open NcsExp.Theory

set_option autoImplicit false

universe u

variable {K : Type u}

/-! ## The filter -/

/-- The memory that begins with `filt_buf`, and `collect_cnt`. -/
structure Filter (K : Type u) where
  memory : List K
  collectCnt : Nat

section Source

variable [OfNat K 0] [Add K] [Div K] [LT K] [DecidableLT K] (toFloat : Nat → K)

/-- Lines 132-142. -/
def averageCacu (ptr : List K) : K :=
  let total := (List.range' exNumFilter (totalNumFilter - 2 * exNumFilter)).foldl
    (fun total i => total + ptr.getD i 0) 0
  total / toFloat (totalNumFilter - exNumFilter * 2)

/-- Lines 148-153; `collect_cnt` has eight bits. -/
def dataCollect (f : Filter K) (input : K) : Filter K :=
  { memory := f.memory.set f.collectCnt input, collectCnt := (f.collectCnt + 1) % 2 ^ 8 }

/-- Lines 154-169. -/
def filterResult (f : Filter K) (resInput : K) : Filter K × Option K :=
  let f := dataCollect f resInput
  if f.collectCnt = totalNumFilter then
    let sorted := selectionSort (fun a b => decide (a < b)) f.memory totalNumFilter
    ({ memory := sorted, collectCnt := 0 }, some (averageCacu toFloat sorted))
  else (f, none)

/-- The filter at the start, in front of `rest`. -/
def boot (rest : List K) : Filter K where
  memory := List.replicate totalNumFilter 0 ++ rest
  collectCnt := 0

/-- The filter before call `k`, where call `k` is for `inputs k`. -/
def filterAt (rest : List K) (inputs : Nat → K) : Nat → Filter K
  | 0 => boot rest
  | k + 1 => (filterResult toFloat (filterAt rest inputs k) (inputs k)).1

/-- What call `k` puts out. -/
def output (rest : List K) (inputs : Nat → K) (k : Nat) : Option K :=
  (filterResult toFloat (filterAt toFloat rest inputs k) (inputs k)).2

end Source

/-- The filter of the model. -/
theorem filterResult_eq {m : Machine} (room : m.collectCnt < totalNumFilter) (consumer : Consumer)
    (input : Float32) (origin : Option Nat) :
    let t := Peers.filterResult m consumer input origin
    (⟨⟨t.1.filtBuf, t.1.collectCnt⟩, t.2⟩ : Filter Float32 × Option Float32) =
      filterResult Float32.ofNat ⟨m.filtBuf, m.collectCnt⟩ input := by
  have small : (m.collectCnt + 1) % 2 ^ 8 = m.collectCnt + 1 := by
    rw [totalNumFilter] at room
    omega
  rw [filterResult, dataCollect, small]
  by_cases full : m.collectCnt + 1 = totalNumFilter
  · rw [filterResult_full full, if_pos full]
    rfl
  · rw [filterResult_short full, if_neg full]

/-! ## The samples of a window -/

/-- The six samples up to `inputs k`. -/
def window (inputs : Nat → K) (k : Nat) : List K := (List.range' (k - 5) 6).map inputs

/-- The samples that are in the filter before call `k`. -/
def collected (inputs : Nat → K) (k : Nat) : List K :=
  (List.range' (k - k % 6) (k % 6)).map inputs

theorem collected_snoc (inputs : Nat → K) (k : Nat) :
    collected inputs k ++ [inputs k] = (List.range' (k - k % 6) (k % 6 + 1)).map inputs := by
  have last : k - k % 6 + k % 6 = k := by omega
  rw [collected, List.range'_1_concat, List.map_append, last]
  rfl

/-- The six cells once the sample is in them. -/
theorem set_cells {inputs : Nat → K} {k : Nat} {cells : List K} (six : cells.length = 6)
    (before : cells.take (k % 6) = collected inputs k) :
    (cells.set (k % 6) (inputs k)).take (k % 6 + 1) =
      (List.range' (k - k % 6) (k % 6 + 1)).map inputs := by
  have inside : k % 6 < (cells.set (k % 6) (inputs k)).length := by
    rw [List.length_set]
    omega
  rw [List.take_succ_eq_append_getElem inside, List.getElem_set_self,
    List.take_set_of_le (Nat.le_refl _), before, collected_snoc]

/-- The filter before call `k`. -/
structure Collecting (rest : List K) (inputs : Nat → K) (k : Nat) (f : Filter K) : Prop where
  count : f.collectCnt = k % 6
  cells : ∃ cells : List K, cells.length = 6 ∧ f.memory = cells ++ rest ∧
    cells.take (k % 6) = collected inputs k

variable {rest arr : List K} {inputs : Nat → K} {k : Nat} {f : Filter K}

theorem dataCollect_cells (collecting : Collecting rest inputs k f) :
    ∃ cells : List K, cells.length = 6 ∧
      dataCollect f (inputs k) = ⟨cells ++ rest, k % 6 + 1⟩ ∧
      cells.take (k % 6 + 1) = (List.range' (k - k % 6) (k % 6 + 1)).map inputs := by
  obtain ⟨count, cells, six, memory, before⟩ := collecting
  have inside : k % 6 < cells.length := by omega
  refine ⟨cells.set (k % 6) (inputs k), by rw [List.length_set, six], ?_, set_cells six before⟩
  have small : (k % 6 + 1) % 2 ^ 8 = k % 6 + 1 := by omega
  rw [dataCollect, count, memory, small, List.set_append_left _ _ inside]

variable [Field K] [LinearOrder K]

/-- What is put out for a window. -/
def mean (values : List K) : K :=
  averageCacu (fun n => (n : K)) (selectionSort (fun a b => decide (a < b)) values 6)

/-- **The sixth call** of a window. -/
theorem filterResult_sixth (collecting : Collecting rest inputs k f) (sixth : k % 6 = 5) :
    filterResult (fun n => (n : K)) f (inputs k) =
      (⟨selectionSort (fun a b => decide (a < b)) (window inputs k) 6 ++ rest, 0⟩,
        some (mean (window inputs k))) := by
  obtain ⟨cells, six, collect, full⟩ := dataCollect_cells collecting
  have whole : cells = window inputs k := by
    rw [sixth, List.take_of_length_le (Nat.le_of_eq six)] at full
    exact full
  have sorted := selectionSort_append (fun a b : K => decide (a < b)) cells rest
  have length := (selectionSort_perm (fun a b : K => decide (a < b)) cells 6).length_eq.trans six
  have average : averageCacu (fun n => (n : K))
      (selectionSort (fun a b => decide (a < b)) cells 6 ++ rest) = mean cells := by
    rw [mean]
    generalize selectionSort (fun a b => decide (a < b)) cells 6 = out at length
    match out, length with
    | [a, b, c, d, e, f], _ => rfl
  rw [six] at sorted
  have cnt : k % 6 + 1 = totalNumFilter := by
    rw [sixth]
    rfl
  rw [filterResult, collect, if_pos cnt]
  change (_, some (averageCacu _ (selectionSort _ (cells ++ rest) 6))) = _
  rw [← whole, ← average, ← sorted]
  rfl

/-- **Any other call.** -/
theorem filterResult_other (collecting : Collecting rest inputs k f) (other : k % 6 ≠ 5) :
    (filterResult (fun n => (n : K)) f (inputs k)).2 = none ∧
      Collecting rest inputs (k + 1) (filterResult (fun n => (n : K)) f (inputs k)).1 := by
  obtain ⟨cells, six, collect, taken⟩ := dataCollect_cells collecting
  have cnt : k % 6 + 1 ≠ totalNumFilter := by
    rw [totalNumFilter]
    omega
  have next : (k + 1) % 6 = k % 6 + 1 := by omega
  have start : k + 1 - (k % 6 + 1) = k - k % 6 := by omega
  rw [filterResult, collect, if_neg cnt]
  refine ⟨rfl, next.symm, cells, six, rfl, ?_⟩
  rw [collected, next, start]
  exact taken

theorem filterResult_collecting (collecting : Collecting rest inputs k f) :
    Collecting rest inputs (k + 1) (filterResult (fun n => (n : K)) f (inputs k)).1 := by
  by_cases sixth : k % 6 = 5
  · have next : (k + 1) % 6 = 0 := by omega
    rw [filterResult_sixth collecting sixth]
    refine ⟨next.symm, _, ?_, rfl, ?_⟩
    · rw [(selectionSort_perm _ _ 6).length_eq, window, List.length_map, List.length_range']
    · rw [collected, next]
      rfl
  · exact (filterResult_other collecting sixth).2

/-- **Every call** finds the samples since the last output in the filter. -/
theorem filterAt_collecting (rest : List K) (inputs : Nat → K) (k : Nat) :
    Collecting rest inputs k (filterAt (fun n => (n : K)) rest inputs k) := by
  induction k with
  | zero => exact ⟨rfl, _, List.length_replicate, rfl, rfl⟩
  | succ k ih => exact filterResult_collecting ih

theorem output_eq (rest : List K) (inputs : Nat → K) (k : Nat) :
    output (fun n => (n : K)) rest inputs k =
      if k % 6 = 5 then some (mean (window inputs k)) else none := by
  have collecting := filterAt_collecting rest inputs k
  rw [output]
  split
  · rename_i sixth
    rw [filterResult_sixth collecting sixth]
  · rename_i other
    exact (filterResult_other collecting other).1

/-! ## The mean of a window -/

omit [Field K] in
theorem sorted_sort (arr : List K) :
    (selectionSort (fun a b => decide (a < b)) arr arr.length).Pairwise (· ≤ ·) := by
  have irrefl (a : K) : decide (a < a) = false := decide_eq_false fun below => below.false
  have trans (a b c : K) (first : decide (a < b) = true) (second : decide (b < c) = true) :
      decide (a < c) = true :=
    decide_eq_true ((of_decide_eq_true first).trans (of_decide_eq_true second))
  have sorted := selectionSort_sorted irrefl trans arr
  exact sorted.imp fun above => not_lt.mp (of_decide_eq_false above)

omit [Field K] in
/-- The sorted list is the one of the values in any other order. -/
theorem sort_congr {arr' : List K} (perm : arr.Perm arr') :
    selectionSort (fun a b => decide (a < b)) arr arr.length =
      selectionSort (fun a b => decide (a < b)) arr' arr'.length := by
  refine List.Perm.eq_of_pairwise (fun a b _ _ first second => le_antisymm first second)
    (sorted_sort arr) (sorted_sort arr') ?_
  exact (selectionSort_perm ..).trans (perm.trans (selectionSort_perm ..).symm)

/-- **Two outliers are trimmed**, wherever they are. -/
theorem mean_between [IsStrictOrderedRing K] {values : List K} {lo hi : K}
    (six : values.length = 6) (four : 4 ≤ within lo hi values) :
    lo ≤ mean values ∧ mean values ≤ hi := by
  have perm := selectionSort_perm (fun a b : K => decide (a < b)) values 6
  have order := sorted_sort values
  rw [six] at order
  rw [mean]
  generalize selectionSort (fun a b => decide (a < b)) values 6 = sorted at perm order
  have length : sorted.length = 6 := perm.length_eq.trans six
  have few : sorted.length ≤ within lo hi sorted + 2 := by
    rw [within_perm perm, length]
    omega
  have third := trimmed_between order few (i := 2) (by omega) (by omega) (by omega)
  have fourth := trimmed_between order few (i := 3) (by omega) (by omega) (by omega)
  match sorted, length, third, fourth with
  | [a, b, c, d, e, f], _, third, fourth =>
      have value : averageCacu (fun n => (n : K)) [a, b, c, d, e, f] = (0 + c + d) / (2 : ℕ) := rfl
      change lo ≤ c ∧ c ≤ hi at third
      change lo ≤ d ∧ d ≤ hi at fourth
      rw [value, zero_add, Nat.cast_two]
      exact ⟨by linarith, by linarith⟩

/-! ## Every call -/

/-- Call `k` of a sequence of calls. -/
structure CallSound (rest : List K) (inputs : Nat → K) (k : Nat) : Prop where
  sixth : (output (fun n => (n : K)) rest inputs k).isSome ↔ k % 6 = 5
  reset : (output (fun n => (n : K)) rest inputs k).isSome →
    (filterAt (fun n => (n : K)) rest inputs (k + 1)).collectCnt = 0
  inside : ∃ cells : List K, cells.length = 6 ∧
    (filterAt (fun n => (n : K)) rest inputs (k + 1)).memory = cells ++ rest
  anyOrder : ∀ (rest' : List K) (inputs' : Nat → K) (k' : Nat), k % 6 = 5 → k' % 6 = 5 →
    (window inputs k).Perm (window inputs' k') →
    output (fun n => (n : K)) rest inputs k = output (fun n => (n : K)) rest' inputs' k'
  robust : ∀ lo hi average : K, output (fun n => (n : K)) rest inputs k = some average →
    4 ≤ within lo hi (window inputs k) → lo ≤ average ∧ average ≤ hi

/-- **The filter.**  The sort sorts what it is given and nothing behind it, and every call of
every sequence of calls is sound. -/
theorem filter_sound [IsStrictOrderedRing K] :
    (∀ arr rest : List K, ∃ sorted : List K,
      selectionSort (fun a b => decide (a < b)) (arr ++ rest) arr.length = sorted ++ rest ∧
        sorted.Perm arr ∧ sorted.Pairwise (· ≤ ·)) ∧
    ∀ (rest : List K) (inputs : Nat → K) (k : Nat), CallSound rest inputs k := by
  refine ⟨fun arr rest => ?_, fun rest inputs k => ?_⟩
  · exact ⟨_, selectionSort_append _ arr rest, selectionSort_perm .., sorted_sort arr⟩
  have length (inputs : Nat → K) (k : Nat) : (window inputs k).length = 6 := by
    rw [window, List.length_map, List.length_range']
  have after := filterAt_collecting rest inputs (k + 1)
  have isSome : (output (fun n => (n : K)) rest inputs k).isSome ↔ k % 6 = 5 := by
    rw [output_eq]
    split <;> simp [*]
  refine ⟨isSome, fun some => ?_, ?_, ?_, ?_⟩
  · have sixth := isSome.mp some
    rw [after.count]
    omega
  · obtain ⟨cells, six, memory, -⟩ := after.cells
    exact ⟨cells, six, memory⟩
  · intro rest' inputs' k' sixth sixth' perm
    have same := sort_congr perm
    rw [length, length] at same
    rw [output_eq, output_eq, if_pos sixth, if_pos sixth', mean, mean, same]
  · intro lo hi average isAverage four
    rw [output_eq] at isAverage
    split at isAverage
    · cases isAverage
      exact mean_between (length inputs k) four
    · cases isAverage

/-- Samples of which the first and the third are outliers. -/
def outliers : Nat → ℚ
  | 0 => 1000
  | 2 => -1000
  | 3 => 3
  | _ => 2

theorem filter_sound_outliers :
    ∃ average, output (fun n => (n : ℚ)) [] outliers 5 = some average ∧
      2 ≤ average ∧ average ≤ 3 := by
  have sound := (filter_sound (K := ℚ)).2 [] outliers 5
  obtain ⟨average, isAverage⟩ := Option.isSome_iff_exists.mp (sound.sixth.mpr rfl)
  exact ⟨average, isAverage, sound.robust 2 3 average isAverage (by decide)⟩

end NcsExp.Peers.Trimmed
