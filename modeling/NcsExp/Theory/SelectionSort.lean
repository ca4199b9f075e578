/-
# NcsExp.Theory.SelectionSort -- selection sort in place

For each position the least of the cells from there on is looked for, and exchanged
with the cell of the position.  Nothing is asked of the comparison but that it is a
strict order; elements need not be comparable (`selectionSort_sorted`).
-/
import Mathlib.Data.List.Basic

namespace NcsExp.Theory

set_option autoImplicit false

universe u

variable {α : Type u}

/-- Exchange two cells. -/
def swap (arr : List α) (x y : Nat) : List α :=
  match arr[x]?, arr[y]? with
  | some a, some b => (arr.set x b).set y a
  | _, _ => arr

/-- The cell `j` is below the cell `k`. -/
def below (lt : α → α → Bool) (arr : List α) (j k : Nat) : Bool :=
  match arr[j]?, arr[k]? with
  | some a, some b => lt a b
  | _, _ => false

/-- The inner loop: the least cell from `i` on. -/
def minIdx (lt : α → α → Bool) (arr : List α) (i n : Nat) : Nat :=
  (List.range' (i + 1) (n - (i + 1))).foldl (fun m j => if below lt arr j m then j else m) i

def selectionSort (lt : α → α → Bool) (arr : List α) (n : Nat) : List α :=
  (List.range (n - 1)).foldl (fun arr i => swap arr (minIdx lt arr i n) i) arr

/-! ## Exchange -/

theorem swap_perm (arr : List α) (x y : Nat) : (swap arr x y).Perm arr := by
  unfold swap
  split
  · rename_i a b atX atY
    obtain ⟨xIn, rfl⟩ := List.getElem?_eq_some_iff.mp atX
    obtain ⟨yIn, rfl⟩ := List.getElem?_eq_some_iff.mp atY
    exact List.set_set_perm xIn yIn
  · exact List.Perm.refl arr

theorem length_swap (arr : List α) (x y : Nat) : (swap arr x y).length = arr.length :=
  (swap_perm arr x y).length_eq

theorem swap_get {arr : List α} {x y : Nat} (xIn : x < arr.length) (yIn : y < arr.length)
    (k : Nat) : (swap arr x y)[k]? = arr[if k = y then x else if k = x then y else k]? := by
  simp only [swap, List.getElem?_eq_getElem xIn, List.getElem?_eq_getElem yIn, List.getElem?_set,
    List.length_set]
  by_cases atY : y = k
  · subst atY
    simp [yIn, xIn]
  · by_cases atX : x = k
    · subst atX
      simp [atY, Ne.symm atY, xIn, yIn]
    · simp [atX, atY, Ne.symm atX, Ne.symm atY]

/-! ## The inner loop -/

section Order

variable {lt : α → α → Bool} (irrefl : ∀ a, lt a a = false)
  (trans : ∀ a b c, lt a b = true → lt b c = true → lt a c = true)

include irrefl in
theorem below_irrefl (arr : List α) (j : Nat) : below lt arr j j = false := by
  unfold below
  split
  · rename_i a b atA atB
    rw [atA, Option.some.injEq] at atB
    rw [atB, irrefl]
  · rfl

include trans in
theorem below_trans {arr : List α} {i j k : Nat} (first : below lt arr i j = true)
    (second : below lt arr j k = true) : below lt arr i k = true := by
  unfold below at *
  cases atI : arr[i]? <;> cases atJ : arr[j]? <;> cases atK : arr[k]? <;>
    simp_all only [reduceCtorEq]
  exact trans _ _ _ first second

include irrefl trans in
/-- The cell found is one of those met, and none of them is below it. -/
theorem least_of_fold (arr : List α) (js : List Nat) (m : Nat) :
    let r := js.foldl (fun m j => if below lt arr j m then j else m) m
    r ∈ m :: js ∧ (r = m ∨ below lt arr r m = true) ∧
      ∀ j ∈ m :: js, below lt arr j r = false := by
  induction js generalizing m with
  | nil =>
      refine ⟨List.mem_cons_self, Or.inl rfl, ?_⟩
      intro j member
      rw [List.mem_singleton.mp member]
      exact below_irrefl irrefl arr m
  | cons j js ih =>
      simp only [List.foldl_cons]
      by_cases smaller : below lt arr j m = true
      · rw [if_pos smaller]
        obtain ⟨member, reached, least⟩ := ih j
        refine ⟨List.mem_cons_of_mem _ member, Or.inr ?_, ?_⟩
        · rcases reached with same | lower
          · rw [same]
            exact smaller
          · exact below_trans trans lower smaller
        · intro k inAll
          rcases List.mem_cons.mp inAll with rfl | inRest
          · cases above : below lt arr k _ with
            | false => rfl
            | true =>
                have again := least j List.mem_cons_self
                rw [below_trans trans smaller above] at again
                cases again
          · exact least k inRest
      · rw [if_neg smaller]
        obtain ⟨member, reached, least⟩ := ih m
        refine ⟨?_, reached, ?_⟩
        · rcases List.mem_cons.mp member with same | inRest
          · rw [same]
            exact List.mem_cons_self
          · exact List.mem_cons_of_mem _ (List.mem_cons_of_mem _ inRest)
        · intro k inAll
          rcases List.mem_cons.mp inAll with rfl | inRest
          · exact least k List.mem_cons_self
          · rcases List.mem_cons.mp inRest with rfl | inTail
            · cases above : below lt arr k _ with
              | false => rfl
              | true =>
                  rcases reached with same | lower
                  · rw [same] at above
                    exact absurd above smaller
                  · exact absurd (below_trans trans above lower) smaller
            · exact least k (List.mem_cons_of_mem _ inTail)

include irrefl trans in
theorem minIdx_least (arr : List α) {i n : Nat} (inside : i < n) :
    i ≤ minIdx lt arr i n ∧ minIdx lt arr i n < n ∧
      ∀ j, i ≤ j → j < n → below lt arr j (minIdx lt arr i n) = false := by
  obtain ⟨member, _, least⟩ :=
    least_of_fold irrefl trans arr (List.range' (i + 1) (n - (i + 1))) i
  have bounds : ∀ j, j ∈ i :: List.range' (i + 1) (n - (i + 1)) ↔ i ≤ j ∧ j < n := by
    intro j
    rw [List.mem_cons, List.mem_range'_1]
    omega
  obtain ⟨above, under⟩ := (bounds _).mp member
  exact ⟨above, under, fun j from_ to_ => least j ((bounds j).mpr ⟨from_, to_⟩)⟩

/-! ## The outer loop -/

/-- The cells in front of `i` are in their places. -/
def SortedTo (lt : α → α → Bool) (arr : List α) (i : Nat) : Prop :=
  ∀ a b, a < i → a < b → below lt arr b a = false

theorem selectionSort_perm (lt : α → α → Bool) (arr : List α) (n : Nat) :
    (selectionSort lt arr n).Perm arr := by
  have each : ∀ (steps : List Nat) (start : List α),
      (steps.foldl (fun arr i => swap arr (minIdx lt arr i n) i) start).Perm start := by
    intro steps
    induction steps with
    | nil => exact fun start => List.Perm.refl start
    | cons i steps ih => exact fun start => (ih _).trans (swap_perm start _ i)
  exact each _ arr

include irrefl trans in
/-- One exchange puts one more cell in its place. -/
theorem swap_sortedTo {arr : List α} {i : Nat} (inside : i < arr.length)
    (sorted : SortedTo lt arr i) :
    SortedTo lt (swap arr (minIdx lt arr i arr.length) i) (i + 1) := by
  obtain ⟨above, under, least⟩ := minIdx_least irrefl trans arr inside
  generalize minIdx lt arr i arr.length = m at above under least
  intro a b upTo after
  unfold below
  rw [swap_get under inside, swap_get under inside]
  show below lt arr _ _ = false
  by_cases beyond : b < arr.length
  · by_cases last : a = i
    · have bNot : ¬ b = i := by omega
      rw [if_neg bNot, if_pos last]
      apply least
      · split <;> omega
      · split <;> omega
    · have aOther : ¬ a = m := by omega
      rw [if_neg last, if_neg aOther]
      apply sorted
      · omega
      · split
        · omega
        · split <;> omega
  · have none_ : arr[b]? = none := List.getElem?_eq_none (by omega)
    have bNot : ¬ b = i := by omega
    have bOther : ¬ b = m := by omega
    rw [if_neg bNot, if_neg bOther]
    simp only [below, none_]

include irrefl trans in
theorem fold_sortedTo (arr : List α) (k : Nat) (inside : k ≤ arr.length) :
    SortedTo lt ((List.range k).foldl
      (fun a i => swap a (minIdx lt a i arr.length) i) arr) k ∧
      ((List.range k).foldl
        (fun a i => swap a (minIdx lt a i arr.length) i) arr).length = arr.length := by
  induction k with
  | zero => exact ⟨fun a b none_ => by omega, rfl⟩
  | succ k ih =>
      obtain ⟨sorted, length⟩ := ih (by omega)
      rw [List.range_succ, List.foldl_append, List.foldl_cons, List.foldl_nil]
      refine ⟨?_, by rw [length_swap, length]⟩
      have grown := swap_sortedTo irrefl trans (by omega) sorted
      rwa [length] at grown

include irrefl trans in
/-- **The sort.** -/
theorem selectionSort_sorted (arr : List α) :
    (selectionSort lt arr arr.length).Pairwise fun a b => lt b a = false := by
  obtain ⟨sorted, length⟩ := fold_sortedTo irrefl trans arr (arr.length - 1) (by omega)
  change SortedTo lt (selectionSort lt arr arr.length) _ at sorted
  change (selectionSort lt arr arr.length).length = _ at length
  rw [List.pairwise_iff_getElem]
  intro a b aIn bIn before
  have order := sorted a b (by omega) before
  simpa only [below, List.getElem?_eq_getElem aIn, List.getElem?_eq_getElem bIn] using order

end Order

/-! ## What lies behind the array -/

theorem swap_append {arr rest : List α} {x y : Nat} (xIn : x < arr.length) (yIn : y < arr.length) :
    swap (arr ++ rest) x y = swap arr x y ++ rest := by
  rw [swap, swap, List.getElem?_append_left xIn, List.getElem?_append_left yIn,
    List.getElem?_eq_getElem xIn, List.getElem?_eq_getElem yIn]
  change ((arr ++ rest).set x arr[y]).set y arr[x] = (arr.set x arr[y]).set y arr[x] ++ rest
  have inSet : y < (arr.set x arr[y]).length := by
    rw [List.length_set]
    exact yIn
  rw [List.set_append_left _ _ xIn, List.set_append_left _ _ inSet]

theorem below_append {lt : α → α → Bool} {arr rest : List α} {j k : Nat} (jIn : j < arr.length)
    (kIn : k < arr.length) : below lt (arr ++ rest) j k = below lt arr j k := by
  rw [below, below, List.getElem?_append_left jIn, List.getElem?_append_left kIn]

/-- The inner loop stays in the array. -/
theorem minIdx_append (lt : α → α → Bool) {arr : List α} (rest : List α) {i : Nat}
    (inside : i < arr.length) :
    minIdx lt (arr ++ rest) i arr.length = minIdx lt arr i arr.length ∧
      minIdx lt arr i arr.length < arr.length := by
  have each : ∀ (js : List Nat) (m : Nat), (∀ j ∈ js, j < arr.length) → m < arr.length →
      js.foldl (fun m j => if below lt (arr ++ rest) j m then j else m) m =
          js.foldl (fun m j => if below lt arr j m then j else m) m ∧
        js.foldl (fun m j => if below lt arr j m then j else m) m < arr.length := by
    intro js
    induction js with
    | nil => exact fun m _ mIn => ⟨rfl, mIn⟩
    | cons j js ih =>
        intro m jsIn mIn
        obtain ⟨jIn, restIn⟩ := List.forall_mem_cons.mp jsIn
        rw [List.foldl_cons, List.foldl_cons, below_append jIn mIn]
        apply ih _ restIn
        split
        · exact jIn
        · exact mIn
  refine each _ i (fun j mem => ?_) inside
  rw [List.mem_range'_1] at mem
  omega

/-- **The sort stays in the array.** -/
theorem selectionSort_append (lt : α → α → Bool) (arr rest : List α) :
    selectionSort lt (arr ++ rest) arr.length = selectionSort lt arr arr.length ++ rest := by
  have each : ∀ (steps : List Nat) (now : List α), now.length = arr.length →
      (∀ i ∈ steps, i < arr.length) →
      steps.foldl (fun arr' i => swap arr' (minIdx lt arr' i arr.length) i) (now ++ rest) =
        steps.foldl (fun arr' i => swap arr' (minIdx lt arr' i arr.length) i) now ++ rest := by
    intro steps
    induction steps with
    | nil => exact fun now _ _ => rfl
    | cons i steps ih =>
        intro now length stepsIn
        obtain ⟨iIn, restIn⟩ := List.forall_mem_cons.mp stepsIn
        rw [← length] at iIn
        obtain ⟨same, under⟩ := minIdx_append lt rest iIn
        rw [length] at same under
        rw [List.foldl_cons, List.foldl_cons, same, swap_append (length.symm ▸ under) iIn]
        apply ih _ _ restIn
        rw [length_swap, length]
  refine each _ arr rfl fun i mem => ?_
  rw [List.mem_range] at mem
  omega

end NcsExp.Theory
