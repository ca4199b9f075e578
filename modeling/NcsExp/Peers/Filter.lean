/-
# NcsExp.Peers.Filter -- what the distance filter averages

`window` is what was pushed since the last average, read off the log.

* `averages_trimmed`, of every run: an average is the mean of the two middle values of
  the six pushed last, whoever pushed them.
* `used_once`: the six come from six results of one peer and one mode, and no result is
  pushed twice, in the runs in which every result is by RTT, no other peer is measured
  within a window, and no closest peer is found when one expires.  Otherwise
  `closest_peer` is set, and `led_notification` pushes a result that `print_result`
  pushed before (`result_pushed_twice`).
-/
import NcsExp.Theory.History
import NcsExp.Peers.Structure

namespace NcsExp.Peers

open NcsExp.Theory

set_option autoImplicit false

/-! ## The window -/

/-- A value in the filter, and the result it is of. -/
structure Sample where
  value : Float32
  origin : Option Nat
  deriving DecidableEq

def Sample.observe (window : List Sample) : Entry → List Sample
  | .pushed _ value origin => window ++ [⟨value, origin⟩]
  | .averaged .. => []
  | _ => window

/-- The values pushed since the last average. -/
def window (log : List Entry) : List Sample := present Sample.observe [] log

/-- The mean of the two middle values of six. -/
def TrimmedMean (values : List Float32) (mean : Float32) : Prop :=
  ∃ a b c d e f : Float32, [a, b, c, d, e, f].Perm values ∧
    [a, b, c, d, e, f].Pairwise (fun x y => ¬ y < x) ∧ mean = (0 + c + d) / 2

/-- An average is the trimmed mean of the window. -/
def Trimmed (past : List Entry) : Entry → Prop
  | .averaged _ mean =>
      (window past).length = 6 ∧ TrimmedMean ((window past).map (·.value)) mean
  | _ => True

structure FilterInv (m : Machine) : Prop where
  length : m.filtBuf.length = totalNumFilter
  room : m.collectCnt < totalNumFilter
  count : m.collectCnt = (window m.log).length
  values : m.filtBuf.take m.collectCnt = (window m.log).map (·.value)
  trimmed : Always Trimmed m.log

theorem window_snoc (log : List Entry) (e : Entry) :
    window (log ++ [e]) = Sample.observe (window log) e :=
  present_snoc

theorem window_of_quiet {log new : List Entry} (quiet : ∀ e ∈ new, e.ofFilter = false) :
    window (log ++ new) = window log := by
  apply present_append_of_quiet
  intro e member now
  have silent := quiet e member
  cases e with
  | pushed => cases silent
  | averaged => cases silent
  | _ => rfl

/-! ## What leaves the filter alone -/

structure SameFilter (m t : Machine) : Prop where
  filtBuf : t.filtBuf = m.filtBuf
  collectCnt : t.collectCnt = m.collectCnt
  log : ∃ new, t.log = m.log ++ new ∧ ∀ e ∈ new, e.ofFilter = false

theorem SameFilter.of_log {m t : Machine} (filtBuf : t.filtBuf = m.filtBuf)
    (collectCnt : t.collectCnt = m.collectCnt) (log : t.log = m.log) : SameFilter m t :=
  ⟨filtBuf, collectCnt, [], by simp [log], by simp⟩

theorem SameFilter.one {m t : Machine} {e : Entry} (filtBuf : t.filtBuf = m.filtBuf)
    (collectCnt : t.collectCnt = m.collectCnt) (log : t.log = m.log ++ [e])
    (quiet : e.ofFilter = false) : SameFilter m t := by
  refine ⟨filtBuf, collectCnt, [e], log, ?_⟩
  intro e' member
  rw [List.mem_singleton.mp member]
  exact quiet

theorem sameFilter_note (m : Machine) {e : Entry} (quiet : e.ofFilter = false) :
    SameFilter m (m.note e) :=
  .one rfl rfl rfl quiet

theorem sameFilter_leds (m : Machine) (leds : Leds) : SameFilter m { m with leds := leds } :=
  .of_log rfl rfl rfl

theorem SameFilter.window_eq {m t : Machine} (same : SameFilter m t) :
    window t.log = window m.log := by
  obtain ⟨new, log, quiet⟩ := same.log
  rw [log, window_of_quiet quiet]

/-- **The rule of the filter.**  What every push keeps, and what only reads the filter
keeps, every step keeps. -/
theorem step_of_filter {J : Machine → Prop} (same : ∀ {m t}, SameFilter m t → J m → J t)
    (push : ∀ {m} (consumer : Consumer) (input : Float32) (origin : Option Nat), J m →
      J (filterResult m consumer input origin).1)
    {m t : Machine} {a : Act} (inv : J m) (taken : step m a = some t) : J t := by
  have led : ∀ (m : Machine) (peer : Option Ptr), J m → J (ledNotification m peer) := by
    intro m peer inv
    cases peer with
    | none => exact same (sameFilter_leds m _) inv
    | some peer =>
        obtain ⟨leds, pushed⟩ := ledNotification_push m peer
        rw [pushed]
        exact same (sameFilter_leds _ leds) (push .led _ _ inv)
  cases a with
  | add peer alloc =>
      rcases add_cases taken with rfl | ⟨node, left, _, _, rfl⟩
      · exact inv
      · exact same (m := m) (.one (e := .added node peer) rfl rfl rfl rfl) inv
  | result r =>
      simp only [step] at taken
      split at taken
      · cases taken
        cases found : peerFind m r.btAddr with
        | none =>
            rw [peerThread_unknown found]
            exact inv
        | some peer =>
            rw [peerThread_eq found]
            have stored : J (m.store peer r) := 
              same (m := m) (.one (e := .processed r) rfl rfl rfl rfl) inv
            have printed : J (printResult (m.store peer r) peer) := push _ _ _ stored
            have cached : J (m.measure peer r) :=
              same (m := printResult (m.store peer r) peer) (.of_log rfl rfl rfl) printed
            have shown := led (m.measure peer r) (m.measure peer r).closestPeer cached
            exact same (sameFilter_note _ rfl) shown
      · cases taken
  | tick =>
      cases taken
      have loop : ∀ (fuel : Nat) (node : Option Ptr) (m : Machine), J m →
          J (timeoutLoop fuel node m) := by
        intro fuel
        induction fuel with
        | zero => exact fun node m inv => inv
        | succ fuel ih =>
            intro node m inv
            cases node with
            | none => exact inv
            | some node =>
                apply ih
                by_cases later : (m.entry node).timeoutMs > timeoutStepMs
                · rw [timeoutBody_kept later]
                  exact same (m := m) (.of_log rfl rfl rfl) inv
                · rw [timeoutBody_expired later]
                  exact led _ _ (same (m := m) (.one (e := .freed node) rfl rfl rfl rfl) inv)
      exact loop _ _ _ (same (m := m) (.one (e := .ticked) rfl rfl rfl rfl) inv)

/-! ## Every average -/

theorem lt_irrefl (a : Float32) : decide (a < a) = false :=
  decide_eq_false (FloatOrder.lt_irrefl a)

theorem lt_trans (a b c : Float32) (first : decide (a < b) = true)
    (second : decide (b < c) = true) : decide (a < c) = true := by
  rw [decide_eq_true_eq] at *
  exact FloatOrder.lt_trans first second

/-- `average_cacu` of the sorted window. -/
theorem trimmedMean_sorted {values : List Float32} (six : values.length = totalNumFilter) :
    TrimmedMean values
      (averageCacu (selectionSort (fun a b => decide (a < b)) values totalNumFilter)) := by
  have perm := selectionSort_perm (fun a b : Float32 => decide (a < b)) values totalNumFilter
  have sorted := selectionSort_sorted lt_irrefl lt_trans values
  rw [six] at sorted
  generalize selectionSort (fun a b => decide (a < b)) values totalNumFilter = out at perm sorted
  have length : out.length = 6 := perm.length_eq.trans six
  match out, length with
  | [a, b, c, d, e, f], _ =>
      refine ⟨a, b, c, d, e, f, perm, ?_, ?_⟩
      · exact sorted.imp fun above => by simpa using above
      · rfl

/-- The window after one more push. -/
theorem FilterInv.set_take {m : Machine} (inv : FilterInv m) (input : Float32) :
    (m.filtBuf.set m.collectCnt input).take (m.collectCnt + 1) =
      (window m.log).map (·.value) ++ [input] := by
  have inside : m.collectCnt < (m.filtBuf.set m.collectCnt input).length := by
    rw [List.length_set, inv.length]
    exact inv.room
  rw [List.take_succ_eq_append_getElem inside, List.getElem_set_self,
    List.take_set_of_le (Nat.le_refl _), inv.values]

theorem filterResult_inv {m : Machine} (inv : FilterInv m) (consumer : Consumer)
    (input : Float32) (origin : Option Nat) :
    FilterInv (filterResult m consumer input origin).1 := by
  have pushed : Always Trimmed (m.log ++ [Entry.pushed consumer input origin]) :=
    always_snoc.mpr ⟨inv.trimmed, trivial⟩
  have grown : window (m.log ++ [Entry.pushed consumer input origin]) =
      window m.log ++ [⟨input, origin⟩] := window_snoc ..
  have values := inv.set_take input
  have length : (m.filtBuf.set m.collectCnt input).length = totalNumFilter := by
    rw [List.length_set, inv.length]
  by_cases full : m.collectCnt + 1 = totalNumFilter
  · rw [filterResult_full full]
    rw [full, List.take_of_length_le (Nat.le_of_eq length)] at values
    have trimmed := trimmedMean_sorted length
    refine ⟨?_, ?_, ?_, ?_, ?_⟩
    · show (m.sorted input).length = _
      exact (selectionSort_perm ..).length_eq.trans length
    · show 0 < totalNumFilter
      decide
    · show 0 = (window (_ ++ [_])).length
      rw [window_snoc]
      rfl
    · show List.take 0 _ = (window (_ ++ [_])).map _
      rw [window_snoc]
      rfl
    · refine always_snoc.mpr ⟨pushed, ?_, ?_⟩
      · rw [grown, List.length_append, ← inv.count]
        exact full
      · rw [grown, List.map_append]
        show TrimmedMean ((window m.log).map (·.value) ++ [input]) _
        rw [← values]
        exact trimmed
  · rw [filterResult_short full]
    refine ⟨length, ?_, ?_, ?_, pushed⟩
    · have room := inv.room
      show m.collectCnt + 1 < totalNumFilter
      omega
    · show m.collectCnt + 1 = (window (m.log ++ _)).length
      rw [grown, List.length_append, ← inv.count]
      rfl
    · show (m.filtBuf.set m.collectCnt input).take (m.collectCnt + 1) = (window (m.log ++ _)).map _
      rw [grown, List.map_append, values]
      rfl

theorem SameFilter.filterInv {m t : Machine} (same : SameFilter m t) (inv : FilterInv m) :
    FilterInv t := by
  have windowSame := same.window_eq
  obtain ⟨filtBuf, collectCnt, new, log, quiet⟩ := same
  refine ⟨?_, ?_, ?_, ?_, ?_⟩
  · rw [filtBuf]
    exact inv.length
  · rw [collectCnt]
    exact inv.room
  · rw [collectCnt, windowSame]
    exact inv.count
  · rw [filtBuf, collectCnt, windowSame]
    exact inv.values
  · rw [log]
    apply inv.trimmed.append
    intro e member past
    have silent := quiet e member
    cases e with
    | averaged => cases silent
    | _ => trivial

theorem init_filterInv {m : Machine} (init : Init m) : FilterInv m := by
  refine ⟨init.filtBuf, ?_, ?_, ?_, ?_⟩
  · rw [init.collectCnt]
    decide
  · rw [init.collectCnt, init.log]
    rfl
  · rw [init.collectCnt, init.log]
    rfl
  · rw [init.log]
    exact always_nil

theorem reachable_filterInv {ok : Machine → Act → Bool} {m : Machine}
    (run : Reachable step Init ok m) : FilterInv m := by
  apply run.invariant
  · intro s init
    exact init_filterInv init
  · intro s a t inv _ taken
    exact step_of_filter (fun same inv => same.filterInv inv)
      (fun consumer input origin inv => filterResult_inv inv consumer input origin) inv taken

/-- **Every average.**  It is the trimmed mean of the six values pushed last. -/
theorem averages_trimmed {m : Machine} (run : Reachable step Init unguarded m) :
    Always Trimmed m.log :=
  (reachable_filterInv run).trimmed

/-! ## Each result once -/

/-- The results pushed so far. -/
def pushes (log : List Entry) : List (Option Nat) :=
  log.filterMap fun
    | .pushed _ _ origin => some origin
    | _ => none

/-- The samples are measurements of different results of one peer and one mode, in the
order in which these were processed. -/
def OneSource (log : List Entry) (samples : List Sample) : Prop :=
  ∃ of : List (Nat × DmResult),
    samples = of.map (fun s => ⟨s.2.measure, some s.1⟩) ∧
    (∀ s ∈ of, (results log)[s.1]? = some s.2) ∧
    of.Pairwise (fun s s' => s.1 < s'.1) ∧
    ∃ peer mode, ∀ s ∈ of, s.2.btAddr = peer ∧ s.2.rangingMode = mode

/-- A push is of a new result, of the source of the window; so is an average. -/
def Sourced (past : List Entry) : Entry → Prop
  | .pushed _ value origin =>
      origin ∉ pushes past ∧ OneSource past (window past ++ [⟨value, origin⟩])
  | .averaged .. => OneSource past (window past)
  | _ => True

/-- What the filter is for. -/
def UsedOnce (past : List Entry) (now : Entry) : Prop := Trimmed past now ∧ Sourced past now

/-- The results in the window are of the peer and the mode of `r`. -/
def sameSource (m : Machine) (r : DmResult) : Bool :=
  (window m.log).all fun s =>
    (s.origin.bind fun k => (results m.log)[k]?).any fun r' =>
      r'.btAddr == r.btAddr && r'.rangingMode == r.rangingMode

/-- When a node expires, none of those behind it is found to be closest. -/
def noneFound (m : Machine) : List Ptr → Bool
  | [] => true
  | node :: rest =>
      (!expiring m node || (findClosest m.entry rest).isNone) && noneFound m rest

def rttOnly (m : Machine) : Act → Bool
  | .add .. => true
  | .result r => (peerFind m r.btAddr).isNone || r.rangingMode == .rtt && sameSource m r
  | .tick => noneFound m m.nodes

/-! ### Logs -/

structure LogOk (log : List Entry) : Prop where
  sourced : Always Sourced log
  window : OneSource log (window log)
  fresh : ∀ o ∈ pushes log, ∃ k, o = some k ∧ k < (results log).length

theorem results_append (log new : List Entry) : results (log ++ new) = results log ++ results new :=
  List.filterMap_append ..

theorem OneSource.append {log : List Entry} {samples : List Sample}
    (source : OneSource log samples) (new : List Entry) : OneSource (log ++ new) samples := by
  obtain ⟨of, same, found, order, one⟩ := source
  refine ⟨of, same, ?_, order, one⟩
  intro s member
  have inside := (List.getElem?_eq_some_iff.mp (found s member)).1
  rw [results_append, List.getElem?_append_left inside]
  exact found s member

theorem oneSource_nil (log : List Entry) : OneSource log [] :=
  ⟨[], rfl, by simp, List.Pairwise.nil, ⟨0, 0⟩, .rtt, by simp⟩

theorem pushes_of_quiet (log : List Entry) {new : List Entry}
    (quiet : ∀ e ∈ new, e.ofFilter = false) : pushes (log ++ new) = pushes log := by
  have silent : pushes new = [] := by
    apply List.filterMap_eq_nil_iff.mpr
    intro e member
    have none_ := quiet e member
    cases e with
    | pushed => cases none_
    | _ => rfl
  rw [pushes, List.filterMap_append]
  show pushes log ++ pushes new = _
  rw [silent, List.append_nil]

/-- What neither pushes nor averages. -/
theorem LogOk.quiet {log : List Entry} (ok : LogOk log) {new : List Entry}
    (quiet : ∀ e ∈ new, e.ofFilter = false) : LogOk (log ++ new) := by
  refine ⟨?_, ?_, ?_⟩
  · apply ok.sourced.append
    intro e member past
    have none_ := quiet e member
    cases e with
    | pushed => cases none_
    | averaged => cases none_
    | _ => trivial
  · rw [window_of_quiet quiet]
    exact ok.window.append new
  · intro o member
    rw [pushes_of_quiet log quiet] at member
    obtain ⟨k, same, below⟩ := ok.fresh o member
    refine ⟨k, same, ?_⟩
    rw [results_append, List.length_append]
    omega

theorem LogOk.one {log : List Entry} (ok : LogOk log) {e : Entry} (quiet : e.ofFilter = false) :
    LogOk (log ++ [e]) := by
  apply ok.quiet
  intro e' member
  rw [List.mem_singleton.mp member]
  exact quiet

/-- One more result of the source of the window. -/
theorem LogOk.push {log : List Entry} (ok : LogOk log) {consumer : Consumer} {k : Nat}
    {r : DmResult} (at_ : (results log)[k]? = some r) (new : some k ∉ pushes log)
    (source : OneSource log (Peers.window log ++ [⟨r.measure, some k⟩])) :
    LogOk (log ++ [Entry.pushed consumer r.measure (some k)]) := by
  refine ⟨always_snoc.mpr ⟨ok.sourced, new, source⟩, ?_, ?_⟩
  · rw [window_snoc]
    exact source.append _
  · intro o member
    have grown : pushes (log ++ [Entry.pushed consumer r.measure (some k)]) =
        pushes log ++ [some k] :=
      List.filterMap_append ..
    rw [grown] at member
    rw [results_append, List.length_append]
    rcases List.mem_append.mp member with before | now
    · obtain ⟨k', same, below⟩ := ok.fresh o before
      exact ⟨k', same, by omega⟩
    · refine ⟨k, List.mem_singleton.mp now, ?_⟩
      have inside := (List.getElem?_eq_some_iff.mp at_).1
      omega

theorem LogOk.average {log : List Entry} (ok : LogOk log) (consumer : Consumer) (mean : Float32) :
    LogOk (log ++ [Entry.averaged consumer mean]) := by
  refine ⟨always_snoc.mpr ⟨ok.sourced, ok.window⟩, ?_, ?_⟩
  · rw [window_snoc]
    exact oneSource_nil _
  · intro o member
    have same : pushes (log ++ [Entry.averaged consumer mean]) = pushes log :=
      (List.filterMap_append ..).trans (List.append_nil _)
    rw [same] at member
    obtain ⟨k, same, below⟩ := ok.fresh o member
    refine ⟨k, same, ?_⟩
    rw [results_append, List.length_append]
    omega

theorem filterResult_logOk {m : Machine} {consumer : Consumer} {input : Float32}
    {origin : Option Nat} (pushed : LogOk (m.log ++ [Entry.pushed consumer input origin])) :
    LogOk (filterResult m consumer input origin).1.log := by
  by_cases full : m.collectCnt + 1 = totalNumFilter
  · rw [filterResult_full full]
    exact pushed.average consumer _
  · rw [filterResult_short full]
    exact pushed

/-- A result of the source of the window extends it. -/
theorem sourced_of_same {m : Machine} (ok : LogOk m.log) {r : DmResult}
    (same : sameSource m r = true) :
    OneSource (m.log ++ [Entry.processed r])
      (window m.log ++ [⟨r.measure, some (results m.log).length⟩]) := by
  obtain ⟨of, samples, found, order, _⟩ := ok.window
  have own : results (m.log ++ [Entry.processed r]) = results m.log ++ [r] := results_append ..
  unfold sameSource at same
  rw [List.all_eq_true] at same
  have sameAs : ∀ s ∈ of, s.2.btAddr = r.btAddr ∧ s.2.rangingMode = r.rangingMode := by
    intro s member
    have inWindow : (⟨s.2.measure, some s.1⟩ : Sample) ∈ window m.log := by
      rw [samples]
      exact List.mem_map_of_mem (f := fun s : Nat × DmResult => (⟨s.2.measure, some s.1⟩ : Sample))
        member
    have agree := same _ inWindow
    rw [Option.bind_some, found s member] at agree
    simpa using agree
  refine ⟨of ++ [((results m.log).length, r)], ?_, ?_, ?_, r.btAddr, r.rangingMode, ?_⟩
  · rw [samples, List.map_append]
    rfl
  · intro s member
    rw [own]
    rcases List.mem_append.mp member with before | now
    · have inside := (List.getElem?_eq_some_iff.mp (found s before)).1
      rw [List.getElem?_append_left inside]
      exact found s before
    · rw [List.mem_singleton.mp now]
      simp
  · rw [List.pairwise_append]
    refine ⟨order, List.pairwise_singleton .., ?_⟩
    intro s before s' now
    rw [List.mem_singleton.mp now]
    exact (List.getElem?_eq_some_iff.mp (found s before)).1
  · intro s member
    rcases List.mem_append.mp member with before | now
    · exact sameAs s before
    · rw [List.mem_singleton.mp now]
      exact ⟨rfl, rfl⟩

/-! ### Every run by RTT -/

structure OnceInv (m : Machine) (nodes : List Ptr) : Prop where
  structured : Structured m nodes
  log : LogOk m.log
  uncached : m.closestPeer = none

theorem add_onceInv {m t : Machine} {nodes : List Ptr} (inv : OnceInv m nodes) {peer : BtAddr}
    {alloc : Option (Ptr × DmResult)} (taken : peerSupportedAdd m peer alloc = some t) :
    ∃ nodes, OnceInv t nodes := by
  rcases add_cases taken with rfl | ⟨node, left, new, free, rfl⟩
  · exact ⟨nodes, inv⟩
  · refine ⟨nodes ++ [node], newEntry_structured inv.structured new free, ?_, inv.uncached⟩
    exact inv.log.one (e := .added node peer) rfl

/-- The push of `print_result`. -/
theorem printed_logOk {m : Machine} (ok : LogOk m.log) {r : DmResult} (peer : Ptr)
    (same : sameSource m r = true) : LogOk (printResult (m.store peer r) peer).log := by
  have quiet : ∀ e ∈ [Entry.processed r], e.ofFilter = false := by simp [Entry.ofFilter]
  unfold printResult
  rw [store_own]
  refine filterResult_logOk ((ok.quiet quiet).push ?_ ?_ ?_)
  · rw [results_append]
    simp [results]
  · rw [pushes_of_quiet m.log quiet]
    intro member
    obtain ⟨k, isK, below⟩ := ok.fresh _ member
    cases isK
    exact absurd below (Nat.lt_irrefl _)
  · rw [window_of_quiet quiet]
    exact sourced_of_same ok same

theorem peerThread_onceInv {m : Machine} {nodes : List Ptr} (inv : OnceInv m nodes)
    {r : DmResult} (met : rttOnly m (.result r) = true) : OnceInv (peerThread m r) nodes := by
  have structured := peerThread_structured inv.structured r
  cases found : peerFind m r.btAddr with
  | none =>
      rw [peerThread_unknown found]
      exact inv
  | some peer =>
      simp only [rttOnly, found, Option.isNone_some, Bool.false_or, Bool.and_eq_true,
        beq_iff_eq] at met
      obtain ⟨rtt, same⟩ := met
      have uncached : (m.measure peer r).closestPeer = none := by
        rw [(measure_same m peer r).closestPeer]
        show mcpdMinPeerResult (m.store peer r).entry m.closestPeer (some peer) = none
        rw [inv.uncached]
        simp [mcpdMinPeerResult, store_own, rtt]
      rw [peerThread_eq found, uncached] at structured ⊢
      refine ⟨structured, ?_, uncached⟩
      exact (printed_logOk inv.log peer same).one (e := .notified peer) rfl

/-- A tick at which no closest peer is found pushes nothing. -/
theorem tick_onceInv {m : Machine} {nodes : List Ptr} (inv : OnceInv m nodes)
    (met : rttOnly m .tick = true) : ∃ left, OnceInv (timeoutHandler m) left := by
  have s := inv.structured
  unfold rttOnly at met
  rw [s.nodes_eq] at met
  have after := timeoutLoop_rule
    (P := fun met rest t => ∃ done, nodes = done ++ rest ∧ Ticking m done met rest t ∧
      noneFound m rest = true ∧ t.closestPeer = none ∧ LogOk t.log)
    (fun ⟨_, _, ticking, _⟩ => ticking.structured.linked)
    (fun {met rest node t} ⟨done, split, ticking, none_, uncached, log⟩ later => by
      refine ⟨done ++ [node], by simp [split], ticking.kept later, ?_, uncached, log⟩
      exact (Bool.and_eq_true_iff.mp none_).2)
    (fun {met rest node t} ⟨done, split, ticking, none_, _, log⟩ now => by
      have up : expiring m node = true := by
        rw [expiring, ← ticking.fresh node List.mem_cons_self]
        simpa using now
      obtain ⟨first, others⟩ := Bool.and_eq_true_iff.mp none_
      have found : (t.expire node).closestPeer = none := by
        rw [expire_closest ticking.structured.linked ticking.structured.live,
          findClosest_congr fun n member =>
            congrArg _ (ticking.fresh n (List.mem_cons_of_mem _ member))]
        simpa [up] using first
      have expired := ticking.expired now
      rw [found] at expired ⊢
      exact ⟨done ++ [node], by simp [split], expired, others, found, log.one rfl⟩)
    ⟨[], rfl, s.ticking, met, inv.uncached, inv.log.one rfl⟩ (length_le_of_live s.linked s.live)
  obtain ⟨left, done, _, ticking, _, uncached, log⟩ := after
  have structured := ticking.structured
  rw [List.append_nil] at structured
  refine ⟨left, ?_⟩
  unfold timeoutHandler
  rw [s.linked.chain.first_eq]
  exact ⟨structured, log, uncached⟩

theorem step_onceInv {m t : Machine} {a : Act} (inv : ∃ nodes, OnceInv m nodes)
    (met : rttOnly m a = true) (taken : step m a = some t) : ∃ nodes, OnceInv t nodes := by
  obtain ⟨nodes, inv⟩ := inv
  cases a with
  | add peer alloc => exact add_onceInv inv taken
  | result r =>
      simp only [step] at taken
      split at taken
      · cases taken
        exact ⟨nodes, peerThread_onceInv inv met⟩
      · cases taken
  | tick =>
      cases taken
      exact tick_onceInv inv met

theorem init_onceInv {m : Machine} (init : Init m) : OnceInv m [] := by
  refine ⟨init_structured init, ?_, init.closestPeer⟩
  rw [init.log]
  exact ⟨always_nil, oneSource_nil _, by simp [pushes]⟩

/-- **Each result once.**  In every run by RTT, from one peer in each window, that finds
no closest peer at an expiry, an average is the trimmed mean of six results of one peer,
and no result is pushed twice. -/
theorem used_once {m : Machine} (run : Reachable step Init rttOnly m) : Always UsedOnce m.log := by
  have inv : ∃ nodes, OnceInv m nodes := by
    apply run.invariant
    · intro s init
      exact ⟨[], init_onceInv init⟩
    · intro s a t inv met taken
      exact step_onceInv inv met taken
  obtain ⟨nodes, inv⟩ := inv
  exact (reachable_filterInv run).trimmed.and inv.log.sourced

/-- A result by RTT. -/
def ranged (peer : BtAddr) (rtt : Float32) : Act := .result ⟨peer, .rtt, rtt, 0⟩

/-- Six results of one peer. -/
def rttOnlyRun : List Act := addAt 1 peerA :: [3, 1, 2, 6, 5, 4].map (ranged peerA)

theorem used_once_rttOnlyRun :
    ∃ m : Machine, Always UsedOnce m.log ∧ .averaged .print 3.5 ∈ m.log := by
  have found : (exec step rttOnly booted rttOnlyRun).any
      (fun m => m.log.contains (.averaged .print 3.5)) = true := by decide +kernel
  obtain ⟨m, run, shown⟩ := exists_reachable_of_exec booted_init found
  rw [List.contains_iff_mem] at shown
  exact ⟨m, used_once run, shown⟩

/-- One result by MCPD. -/
def mcpdRun : List Act := [addAt 1 peerA, measured peerA 3]

/-- **A result is pushed twice.**  The measured peer is the closest one. -/
theorem result_pushed_twice :
    ¬ ∀ m, Reachable step Init unguarded m → Always UsedOnce m.log := by
  intro always
  have found : (exec step unguarded booted mcpdRun).any (fun m => m.log ==
      [.added 1 peerA, .processed ⟨peerA, .mcpd, 0, 3⟩, .pushed .print 3 (some 0),
        .pushed .led 3 (some 0), .notified 1]) = true := by decide +kernel
  obtain ⟨m, run, log⟩ := exists_reachable_of_exec booted_init found
  have once := always m run
  rw [eq_of_beq log] at once
  have second := once [.added 1 peerA, .processed ⟨peerA, .mcpd, 0, 3⟩,
    .pushed .print 3 (some 0)] (.pushed .led 3 (some 0)) [.notified 1] rfl
  exact second.2.1 (by decide)

end NcsExp.Peers
