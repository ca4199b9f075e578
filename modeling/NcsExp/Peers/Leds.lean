/-
# NcsExp.Peers.Leds -- how often the LEDs are refreshed

A processed result that leaves a closest peer is pushed twice, by `print_result` and
then by `led_notification`; the LEDs are set when the second push fills the window.

* `Window` is a part of a run with a number of such results, and nothing else that was
  processed.
* `leds_refreshed`: six of them refresh the LEDs, from any state, if each finds an even
  number of values in the filter.
* `leds_starve`: if the first finds an odd number and no tick comes between, no number
  of them does.
-/
import NcsExp.Peers.Filter

namespace NcsExp.Peers

open NcsExp.Theory

set_option autoImplicit false

/-- The step processes a result. -/
def processes (m : Machine) : Act → Bool
  | .result r => (peerFind m r.btAddr).isSome
  | _ => false

/-- From `s`, steps that meet `ok`, of which `n` process a result, each leaving a
closest peer. -/
inductive Window (ok : Machine → Act → Bool) (s : Machine) : Nat → Machine → Prop
  | start : Window ok s 0 s
  | other {n : Nat} {t w : Machine} {a : Act} (before : Window ok s n t) (met : ok t a = true)
      (idle : processes t a = false) (taken : step t a = some w) : Window ok s n w
  | result {n : Nat} {t w : Machine} {a : Act} (before : Window ok s n t) (met : ok t a = true)
      (active : processes t a = true) (taken : step t a = some w) (closest : w.closestPeer ≠ none) :
      Window ok s (n + 1) w

/-- The windows `led_notification` obtained. -/
def ledOutputs (log : List Entry) : Nat :=
  log.countP fun
    | .averaged .led _ => true
    | _ => false

/-- A result is processed with an even number of values in the filter. -/
def evenStart (m : Machine) (a : Act) : Bool := !processes m a || m.collectCnt % 2 == 0

/-! ## What a step does for the LEDs -/

/-- The LEDs were refreshed, or the window has grown by `n`. -/
def Advances (n : Nat) (m t : Machine) : Prop :=
  ledOutputs m.log < ledOutputs t.log ∨
    ledOutputs m.log = ledOutputs t.log ∧ m.collectCnt + n ≤ t.collectCnt

theorem Advances.trans {n k : Nat} {m t w : Machine} (first : Advances n m t)
    (second : Advances k t w) : Advances (n + k) m w := by
  unfold Advances at *
  omega

theorem ledOutputs_append (log new : List Entry) :
    ledOutputs (log ++ new) = ledOutputs log + ledOutputs new :=
  List.countP_append

theorem ledOutputs_of_quiet {new : List Entry} (quiet : ∀ e ∈ new, e.ofFilter = false) :
    ledOutputs new = 0 := by
  apply List.countP_eq_zero.mpr
  intro e member
  have silent := quiet e member
  cases e with
  | averaged => cases silent
  | _ => simp

theorem SameFilter.ledOutputs_eq {m t : Machine} (same : SameFilter m t) :
    ledOutputs t.log = ledOutputs m.log := by
  obtain ⟨_, _, new, log, quiet⟩ := same
  rw [log, ledOutputs_append, ledOutputs_of_quiet quiet]
  rfl

theorem SameFilter.advances {m t : Machine} (same : SameFilter m t) : Advances 0 m t :=
  Or.inr ⟨same.ledOutputs_eq.symm, Nat.le_of_eq same.collectCnt.symm⟩

/-- A push by `led_notification`: it obtains the window it fills. -/
theorem push_led (m : Machine) (input : Float32) (origin : Option Nat) :
    Advances 1 m (filterResult m .led input origin).1 := by
  by_cases full : m.collectCnt + 1 = totalNumFilter
  · rw [filterResult_full full]
    refine Or.inl ?_
    show ledOutputs m.log < ledOutputs (m.log ++ [_] ++ [_])
    rw [ledOutputs_append, ledOutputs_append]
    simp [ledOutputs]
  · rw [filterResult_short full]
    refine Or.inr ⟨?_, Nat.le_refl _⟩
    show ledOutputs m.log = ledOutputs (m.log ++ [_])
    rw [ledOutputs_append]
    simp [ledOutputs]

/-- A push by `print_result` that does not fill the window. -/
theorem push_print {m : Machine} (short : m.collectCnt + 1 ≠ totalNumFilter) (input : Float32)
    (origin : Option Nat) : Advances 1 m (filterResult m .print input origin).1 := by
  rw [filterResult_short short]
  refine Or.inr ⟨?_, Nat.le_refl _⟩
  show ledOutputs m.log = ledOutputs (m.log ++ [_])
  rw [ledOutputs_append]
  simp [ledOutputs]

theorem ledNotification_some (m : Machine) (peer : Ptr) :
    Advances 1 m (ledNotification m (some peer)) := by
  obtain ⟨leds, pushed⟩ := ledNotification_push m peer
  rw [pushed]
  exact push_led m ..

theorem ledNotification_advances (m : Machine) (peer : Option Ptr) :
    Advances 0 m (ledNotification m peer) := by
  cases peer with
  | none => exact (sameFilter_leds m _).advances
  | some peer =>
      have pushed := ledNotification_some m peer
      unfold Advances at *
      omega

/-- A tick pushes for the LEDs only. -/
theorem timeoutLoop_advances (fuel : Nat) (node : Option Ptr) (m : Machine) :
    Advances 0 m (timeoutLoop fuel node m) := by
  induction fuel generalizing node m with
  | zero => exact Or.inr ⟨rfl, Nat.le_refl _⟩
  | succ fuel ih =>
      cases node with
      | none => exact Or.inr ⟨rfl, Nat.le_refl _⟩
      | some node =>
          refine Advances.trans ?_ (ih _ _)
          by_cases later : (m.entry node).timeoutMs > timeoutStepMs
          · rw [timeoutBody_kept later]
            exact SameFilter.advances (.of_log rfl rfl rfl)
          · rw [timeoutBody_expired later]
            have unlinked : SameFilter m (m.expire node) :=
              .one (e := .freed node) rfl rfl rfl rfl
            exact unlinked.advances.trans (ledNotification_advances ..)

/-- No tick. -/
def noTick (_ : Machine) (a : Act) : Bool := a != .tick

theorem idle_same {m t : Machine} {a : Act} (met : noTick m a = true)
    (idle : processes m a = false) (taken : step m a = some t) : SameFilter m t := by
  cases a with
  | add peer alloc =>
      rcases add_cases taken with rfl | ⟨node, left, _, _, rfl⟩
      · exact .of_log rfl rfl rfl
      · exact .one (e := .added node peer) rfl rfl rfl rfl
  | result r =>
      simp only [step] at taken
      split at taken
      · cases taken
        rw [peerThread_unknown (Option.not_isSome_iff_eq_none.mp (by simpa [processes] using idle))]
        exact .of_log rfl rfl rfl
      · cases taken
  | tick => cases met

/-- A step that processes nothing takes nothing from the LEDs. -/
theorem idle_advances {m t : Machine} {a : Act} (idle : processes m a = false)
    (taken : step m a = some t) : Advances 0 m t := by
  cases a with
  | add peer alloc => exact (idle_same rfl idle taken).advances
  | result r => exact (idle_same rfl idle taken).advances
  | tick =>
      cases taken
      exact (sameFilter_note m rfl).advances.trans (timeoutLoop_advances ..)

/-- What is pushed for a result that leaves a closest peer. -/
theorem processed_eq {m t : Machine} {a : Act} (active : processes m a = true)
    (taken : step m a = some t) (closest : t.closestPeer ≠ none) :
    ∃ (stored : Machine) (input : Float32) (origin : Option Nat) (peer : Ptr) (printed : Machine),
      SameFilter m stored ∧
        SameFilter (filterResult stored .print input origin).1 printed ∧
        SameFilter (ledNotification printed (some peer)) t := by
  cases a with
  | add peer alloc => cases active
  | tick => cases active
  | result r =>
      simp only [step] at taken
      split at taken
      · cases taken
        obtain ⟨peer, found⟩ := Option.isSome_iff_exists.mp active
        rw [peerThread_eq found] at closest ⊢
        have same := ledNotification_same (m.measure peer r) (m.measure peer r).closestPeer
        have chosen : (m.measure peer r).closestPeer ≠ none := by
          rw [← same.closestPeer]
          exact closest
        obtain ⟨c, isC⟩ := Option.ne_none_iff_exists'.mp chosen
        rw [isC]
        exact ⟨m.store peer r, _, _, c, m.measure peer r, .one (e := .processed r) rfl rfl rfl rfl,
          .of_log rfl rfl rfl, sameFilter_note _ rfl⟩
      · cases taken

/-- A result that finds an even number of values is pushed twice in the window, or the
second push fills it. -/
theorem even_advances {m t : Machine} {a : Act} (even : m.collectCnt % 2 = 0)
    (active : processes m a = true) (taken : step m a = some t)
    (closest : t.closestPeer ≠ none) : Advances 2 m t := by
  obtain ⟨stored, input, origin, peer, printed, first, second, third⟩ :=
    processed_eq active taken closest
  have short : stored.collectCnt + 1 ≠ totalNumFilter := by
    rw [first.collectCnt]
    unfold totalNumFilter
    omega
  have print := push_print short input origin
  have led := ledNotification_some printed peer
  exact (((first.advances.trans print).trans second.advances).trans led).trans third.advances

theorem even_of_evenStart {m : Machine} {a : Act} (met : evenStart m a = true)
    (active : processes m a = true) : m.collectCnt % 2 = 0 := by
  simpa [evenStart, active] using met

/-! ## Six results -/

theorem window_advances {s : Machine} (start : FilterInv s) {n : Nat} {t : Machine}
    (window : Window evenStart s n t) : FilterInv t ∧ Advances (2 * n) s t := by
  have keeps : ∀ {m t : Machine} {a : Act}, FilterInv m → step m a = some t → FilterInv t := by
    intro m t a inv taken
    exact step_of_filter (fun same inv => same.filterInv inv)
      (fun consumer input origin inv => filterResult_inv inv consumer input origin) inv taken
  induction window with
  | start => exact ⟨start, Or.inr ⟨rfl, Nat.le_refl _⟩⟩
  | other _ _ idle taken ih => exact ⟨keeps ih.1 taken, ih.2.trans (idle_advances idle taken)⟩
  | result _ met active taken closest ih =>
      have even := even_of_evenStart met active
      exact ⟨keeps ih.1 taken, ih.2.trans (even_advances even active taken closest)⟩

/-- **The LEDs.**  From any state of any run, six results that leave a closest peer, and
that each find an even number of values in the filter, refresh the LEDs. -/
theorem leds_refreshed {s : Machine} (run : Reachable step Init unguarded s) {t : Machine}
    (window : Window evenStart s 6 t) : ledOutputs s.log < ledOutputs t.log := by
  obtain ⟨after, advances⟩ := window_advances (reachable_filterInv run) window
  have room := after.room
  unfold totalNumFilter at room
  rcases advances with refreshed | ⟨_, grown⟩
  · exact refreshed
  · omega

theorem Window.mono {ok ok' : Machine → Act → Bool} {s : Machine} {n : Nat} {t : Machine}
    (window : Window ok s n t) (weaker : ∀ m a, ok m a = true → ok' m a = true) :
    Window ok' s n t := by
  induction window with
  | start => exact .start
  | other _ met idle taken ih => exact .other ih (weaker _ _ met) idle taken
  | result _ met active taken closest ih =>
      exact .result ih (weaker _ _ met) active taken closest

/-- Results alone make a window. -/
theorem window_of_exec {ok : Machine → Act → Bool} {actions : List Act} {s t : Machine}
    (taken : exec step (fun m a => ok m a && processes m a &&
      (step m a).any fun w => w.closestPeer.isSome) s actions = some t) :
    Window ok s actions.length t := by
  have each : ∀ (actions : List Act) (n : Nat) (m : Machine), Window ok s n m →
      exec step (fun m a => ok m a && processes m a &&
        (step m a).any fun w => w.closestPeer.isSome) m actions = some t →
      Window ok s (n + actions.length) t := by
    intro actions
    induction actions with
    | nil =>
        intro n m window same
        cases same
        exact window
    | cons a rest ih =>
        intro n m window taken
        simp only [exec, Option.ite_none_right_eq_some, Bool.and_eq_true] at taken
        obtain ⟨⟨⟨met, active⟩, closest⟩, taken⟩ := taken
        obtain ⟨w, first, tail⟩ := Option.bind_eq_some_iff.mp taken
        rw [first, Option.any_some] at closest
        have longer := ih (n + 1) w
          (.result window met active first (Option.isSome_iff_ne_none.mp closest)) tail
        rwa [List.length_cons, Nat.add_comm rest.length, ← Nat.add_assoc]
  simpa using each actions 0 s .start taken

/-- The peer is added; then six results by MCPD. -/
def addedRun : List Act := [addAt 1 peerA]

def sixResults : List Act := List.replicate 6 (measured peerA 3)

theorem leds_refreshed_sixResults :
    ∃ s t : Machine, Window evenStart s 6 t ∧ ledOutputs s.log < ledOutputs t.log := by
  have found : (exec step unguarded booted addedRun).any (fun s =>
      (exec step (fun m a => evenStart m a && processes m a &&
        (step m a).any fun w => w.closestPeer.isSome) s sixResults).isSome) = true := by
    decide +kernel
  obtain ⟨s, run, found⟩ := exists_reachable_of_exec booted_init found
  obtain ⟨t, taken⟩ := Option.isSome_iff_exists.mp found
  exact ⟨s, t, window_of_exec taken, leds_refreshed run (window_of_exec taken)⟩

/-! ## An odd number -/

/-- A push by `print_result` obtains nothing for the LEDs. -/
theorem print_ledOutputs (m : Machine) (input : Float32) (origin : Option Nat) :
    ledOutputs (filterResult m .print input origin).1.log = ledOutputs m.log := by
  by_cases full : m.collectCnt + 1 = totalNumFilter
  · rw [filterResult_full full]
    show ledOutputs (m.log ++ [_] ++ [_]) = _
    rw [ledOutputs_append, ledOutputs_append]
    simp [ledOutputs]
  · rw [filterResult_short full]
    show ledOutputs (m.log ++ [_]) = _
    rw [ledOutputs_append]
    simp [ledOutputs]

/-- A result that finds an odd number of values: `print_result` fills the window, if
anything does, and the number stays odd. -/
theorem odd_starves {m t : Machine} {a : Act} (odd : m.collectCnt % 2 = 1)
    (active : processes m a = true) (taken : step m a = some t) (closest : t.closestPeer ≠ none) :
    ledOutputs t.log = ledOutputs m.log ∧ t.collectCnt % 2 = 1 := by
  obtain ⟨stored, input, origin, peer, printed, first, second, third⟩ :=
    processed_eq active taken closest
  have count : stored.collectCnt % 2 = 1 := by
    rw [first.collectCnt]
    exact odd
  have even : printed.collectCnt % 2 = 0 := by
    rw [second.collectCnt]
    by_cases full : stored.collectCnt + 1 = totalNumFilter
    · rw [filterResult_full full]
      rfl
    · rw [filterResult_short full]
      show (stored.collectCnt + 1) % 2 = 0
      omega
  have short : printed.collectCnt + 1 ≠ totalNumFilter := by
    unfold totalNumFilter
    omega
  obtain ⟨leds, pushed⟩ := ledNotification_push printed peer
  rw [pushed, filterResult_short short] at third
  constructor
  · rw [third.ledOutputs_eq]
    show ledOutputs (printed.log ++ [_]) = _
    rw [ledOutputs_append, second.ledOutputs_eq, print_ledOutputs, first.ledOutputs_eq]
    simp [ledOutputs]
  · rw [third.collectCnt]
    show (printed.collectCnt + 1) % 2 = 1
    omega

/-- **The LEDs starve.**  However many results leave a closest peer, if the first finds
an odd number of values and no tick comes between. -/
theorem leds_starve {s : Machine} (odd : s.collectCnt % 2 = 1) {n : Nat} {t : Machine}
    (window : Window noTick s n t) :
    ledOutputs t.log = ledOutputs s.log ∧ t.collectCnt % 2 = 1 := by
  induction window with
  | start => exact ⟨rfl, odd⟩
  | other _ met idle taken ih =>
      have same := idle_same met idle taken
      rw [same.ledOutputs_eq, same.collectCnt]
      exact ih
  | result _ _ active taken closest ih =>
      obtain ⟨same, stillOdd⟩ := odd_starves ih.2 active taken closest
      exact ⟨same.trans ih.1, stillOdd⟩

/-- One result by RTT before. -/
def rangedRun : List Act := [addAt 1 peerA, ranged peerA 3]

/-- **The LEDs are not refreshed.**  After one result by RTT six by MCPD set none. -/
theorem leds_not_refreshed :
    ¬ ∀ s, Reachable step Init unguarded s → ∀ t, Window unguarded s 6 t →
      ledOutputs s.log < ledOutputs t.log := by
  intro refreshed
  have found : (exec step unguarded booted rangedRun).any (fun s => s.collectCnt == 1 &&
      (exec step (fun m a => noTick m a && processes m a &&
        (step m a).any fun w => w.closestPeer.isSome) s sixResults).isSome) = true := by
    decide +kernel
  obtain ⟨s, run, found⟩ := exists_reachable_of_exec booted_init found
  simp only [Bool.and_eq_true, beq_iff_eq] at found
  obtain ⟨one, found⟩ := found
  obtain ⟨t, taken⟩ := Option.isSome_iff_exists.mp found
  have starved := leds_starve (by rw [one]) (window_of_exec taken)
  have fresh := refreshed s run t ((window_of_exec taken).mono fun _ _ _ => rfl)
  rw [starved.1] at fresh
  exact Nat.lt_irrefl _ fresh

end NcsExp.Peers
