/-
# NcsExp.MultiLink.Scanning -- scanning comes back

Scanning stops for every attempt, and comes back when `connected` or `disconnected` is
told of a connection that `curr_conn` records.  An attempt that is never created is
recorded nowhere: `scan_connecting_error` only prints, and `scan_filter_no_match` has no
branch for an error, so nothing brings scanning back.  `never_deaf` holds in the runs in
which each failed creation finds a full table or another attempt that is recorded;
after any other failed creation the failure of what is still pending leaves the central
deaf (`deaf_after`).
-/
import NcsExp.MultiLink.Table
import NcsExp.Theory.Progress
import Mathlib.Data.Finset.Card

namespace NcsExp.MultiLink

open NcsExp.Theory

set_option autoImplicit false

/-- `curr_conn` has a free slot. -/
def Room (s : App) : Prop := ∃ i, s.currConn i = none

instance (s : App) : Decidable (Room s) := inferInstanceAs (Decidable (∃ i, s.currConn i = none))

/-- An attempt that `curr_conn` records is pending. -/
def Recorded (s : App) : Prop := ∃ conn ∈ s.attempts, s.currConn.Has conn

instance (s : App) : Decidable (Recorded s) :=
  inferInstanceAs (Decidable (∃ conn ∈ s.attempts, s.currConn.Has conn))

/-- With a free slot and no attempt pending, scanning is active. -/
def NeverDeaf (s : App) : Prop := Room s → s.attempts = ∅ → s.scanning = true

/-- The creation of a connection fails. -/
def Event.NotCreated : Event → Prop
  | .filterMatch created => created = none
  | .filterNoMatch directed created => directed = true ∧ created = none
  | _ => False

instance (e : Event) : Decidable e.NotCreated := by
  cases e <;> unfold Event.NotCreated <;> infer_instance

/-- A creation that fails finds the table full, or an attempt recorded in it. -/
def FailsInTime (s : App) (e : Event) : Prop := e.NotCreated → Room s → Recorded s

instance (s : App) (e : Event) : Decidable (FailsInTime s e) :=
  inferInstanceAs (Decidable (_ → _ → _))

/-- The guard of the runs in which every failed creation comes in time. -/
def failsInTime (s : App) (e : Event) : Bool := decide (FailsInTime s e)

/-! ## What brings scanning back -/

/-- With a free slot, scanning is active or will be when a recorded attempt ends. -/
def Listens (s : App) : Prop := Room s → s.scanning = true ∨ Recorded s

variable {s t : App} {conn : Conn}

theorem not_room (full : s.currConn.find none = none) : ¬ Room s :=
  fun ⟨i, free⟩ => Slots.find_eq_none.mp full i free

theorem Listens.of_scanning (on : s.scanning = true) : Listens s := fun _ => Or.inl on

theorem Listens.of_full (full : s.currConn.find none = none) : Listens s :=
  fun room => absurd room (not_room full)

/-- Nothing is different in what `Listens` looks at. -/
theorem Listens.of_same (listens : Listens s) (curr : t.currConn = s.currConn)
    (scanning : t.scanning = s.scanning) (attempts : t.attempts = s.attempts) : Listens t := by
  unfold Listens Room Recorded
  rw [curr, scanning, attempts]
  exact listens

/-- The end of an attempt that the table does not record. -/
theorem Listens.erase (listens : Listens s) (out : ¬ s.currConn.Has conn)
    (curr : t.currConn = s.currConn) (scanning : t.scanning = s.scanning)
    (attempts : t.attempts = s.attempts.erase conn) : Listens t := by
  intro room
  unfold Room at room
  rw [curr] at room
  rcases listens room with on | ⟨c, pending, here⟩
  · exact Or.inl (scanning.trans on)
  · refine Or.inr ⟨c, ?_, by rwa [curr]⟩
    have other : c ≠ conn := by
      rintro rfl
      exact out here
    rw [attempts]
    exact Finset.mem_erase.mpr ⟨other, pending⟩

theorem listens_scanConnecting (pending : conn ∈ s.attempts) : Listens (scanConnecting s conn) := by
  unfold scanConnecting
  split
  · rename_i room found
    exact fun _ => Or.inr ⟨conn, pending, room, Slots.store_same _⟩
  · rename_i full
    exact .of_full full

theorem listens_scanFilterNoMatch (listens : Listens s) (directed : Bool) (created : Option Conn)
    (inTime : FailsInTime s (.filterNoMatch directed created)) :
    Listens (scanFilterNoMatch s directed created) := by
  unfold scanFilterNoMatch
  split
  · rename_i directed
    split
    · rename_i room found
      cases created with
      | some conn =>
          exact fun _ => Or.inr ⟨conn, Finset.mem_insert_self .., room, Slots.store_same _⟩
      | none => exact fun room => Or.inr (inTime ⟨directed, rfl⟩ room)
    · exact listens
  · exact listens

/-- Scanning comes back with every result of a recorded attempt that leaves room. -/
theorem connectedCentral_listens (s : App) (conn : Conn) (err : UInt8) (secured : Bool) :
    (connectedCentral s conn err secured).scanning = true ∨
      (connectedCentral s conn err secured).currConn.find none = none ∨
      connectedCentral s conn err secured = s ∧ ¬ s.currConn.Has conn := by
  unfold connectedCentral
  dsimp only
  split
  · split
    · exact Or.inl rfl
    · rename_i missing
      exact Or.inr (Or.inr ⟨rfl, Slots.not_has_of_find_eq_none missing⟩)
  · split
    · exact Or.inl rfl
    · rename_i full
      exact Or.inr (Or.inl full)

theorem disconnectedCentral_scanning : (disconnectedCentral s conn).scanning = true := by
  unfold disconnectedCentral
  split <;> rfl

theorem scanning_gattDiscover : (gattDiscover s conn).scanning = s.scanning := by
  unfold gattDiscover
  split <;> rfl

theorem btHrConnected_same (s : App) (conn : Conn) (err : UInt8) :
    (btHrConnected s conn err).scanning = s.scanning ∧
      (btHrConnected s conn err).attempts = s.attempts := by
  unfold btHrConnected
  split
  · exact ⟨rfl, rfl⟩
  · split <;> exact ⟨rfl, rfl⟩

theorem btHrDisconnected_same (s : App) (conn : Conn) :
    (btHrDisconnected s conn).scanning = s.scanning ∧
      (btHrDisconnected s conn).attempts = s.attempts := by
  unfold btHrDisconnected
  split <;> exact ⟨rfl, rfl⟩

/-! ## The runs that never go deaf -/

theorem step_listens {e : Event} (listens : Listens s) (inTime : FailsInTime s e)
    (taken : step s e = some t) : Listens t := by
  cases e with
  | filterMatch created =>
      cases created with
      | some conn =>
          simp only [step, Option.ite_none_right_eq_some, Option.some.injEq] at taken
          obtain ⟨-, rfl⟩ := taken
          exact listens_scanConnecting (Finset.mem_insert_self ..)
      | none =>
          cases taken
          exact fun room => Or.inr (inTime rfl room)
  | filterNoMatch directed created =>
      simp only [step, Option.ite_none_right_eq_some, Option.some.injEq] at taken
      obtain ⟨-, rfl⟩ := taken
      exact listens_scanFilterNoMatch listens directed created inTime
  | connected conn err secured =>
      simp only [step] at taken
      split at taken
      · cases taken
        rcases connectedCentral_listens s conn err secured with
          on | full | ⟨same, out⟩
        · exact .of_scanning on
        · exact .of_full full
        · rw [same]
          exact listens.erase out rfl rfl rfl
      · simp only [Option.ite_none_right_eq_some, Option.some.injEq] at taken
        obtain ⟨-, rfl⟩ := taken
        obtain ⟨scanning, attempts⟩ := btHrConnected_same
          (if err = 0 then { s with peripherals := insert conn s.peripherals } else s) conn err
        have curr := (changes_btHrConnected
          (if err = 0 then { s with peripherals := insert conn s.peripherals } else s)
          conn err).2.1
        refine listens.of_same (curr.trans ?_) (scanning.trans ?_) (attempts.trans ?_) <;>
          split <;> rfl
  | disconnected conn =>
      simp only [step] at taken
      split at taken
      · cases taken
        exact .of_scanning disconnectedCentral_scanning
      · simp only [Option.ite_none_right_eq_some, Option.some.injEq] at taken
        obtain ⟨-, rfl⟩ := taken
        obtain ⟨scanning, attempts⟩ := btHrDisconnected_same s conn
        exact listens.of_same (changes_btHrDisconnected s conn).2.1 scanning attempts
  | securityChanged conn =>
      simp only [step, Option.ite_none_right_eq_some, Option.some.injEq] at taken
      obtain ⟨-, rfl⟩ := taken
      exact listens.of_same (discovers_gattDiscover s conn).2.1 scanning_gattDiscover
        (links_gattDiscover s conn).1

theorem reachable_listens (run : Reachable step (· = start) failsInTime s) : Listens s := by
  apply run.invariant
  · rintro s rfl
    exact .of_scanning rfl
  · intro s e t listens met taken
    exact step_listens listens (of_decide_eq_true met) taken

/-- **The central never goes deaf** in the runs whose failed creations come in time. -/
theorem never_deaf (run : Reachable step (· = start) failsInTime s) : NeverDeaf s := by
  intro room idle
  refine (reachable_listens run room).resolve_right ?_
  rintro ⟨conn, pending, -⟩
  rw [idle] at pending
  exact Finset.notMem_empty conn pending

/-! ## A creation that fails too late -/

/-- There is room, scanning is off and no recorded attempt will bring it back. -/
structure Lost (s : App) : Prop where
  room : Room s
  off : s.scanning = false
  unrecorded : ¬ Recorded s

/-- The events by which pending attempts fail. -/
def Event.AttemptFails : Event → Prop
  | .connected _ err _ => err ≠ 0
  | _ => False

/-- An attempt that is not recorded fails without a trace. -/
theorem Lost.attempt_fails (lost : Lost s) (pending : conn ∈ s.attempts) :
    ∃ t, step s (.connected conn 1 false) = some t ∧ Lost t ∧
      t.attempts = s.attempts.erase conn := by
  have out : s.currConn.find (some conn) = none := by
    refine Slots.find_eq_none.mpr fun i here => ?_
    exact lost.unrecorded ⟨conn, pending, i, here⟩
  have ignored : connectedCentral s conn 1 false = s := by
    rw [connectedCentral, if_pos (by decide), out]
  refine ⟨{ s with attempts := s.attempts.erase conn }, ?_, ?_, rfl⟩
  · rw [step, if_pos pending, ignored]
    rfl
  · refine ⟨lost.room, lost.off, ?_⟩
    rintro ⟨c, still, here⟩
    exact lost.unrecorded ⟨c, Finset.mem_of_mem_erase still, here⟩

/-- When all of them have failed the central is deaf. -/
theorem Lost.deaf (lost : Lost s) : ∃ t, Leads step Event.AttemptFails s t ∧ ¬ NeverDeaf t := by
  by_cases pending : s.attempts = ∅
  · refine ⟨s, .here, fun hears => ?_⟩
    have on := hears lost.room pending
    rw [lost.off] at on
    cases on
  · refine Leads.exists_of_rank (P := fun s => Lost s ∧ s.attempts ≠ ∅) (fun s => s.attempts.card)
      ?_ ⟨lost, pending⟩
    rintro s ⟨lost, pending⟩
    obtain ⟨conn, member⟩ := Finset.nonempty_iff_ne_empty.mpr pending
    obtain ⟨t, taken, lost', attempts⟩ := lost.attempt_fails member
    refine ⟨.connected conn 1 false, t, (by decide : (1 : UInt8) ≠ 0), taken, ?_⟩
    by_cases more : t.attempts = ∅
    · left
      intro hears
      have on := hears lost'.room more
      rw [lost'.off] at on
      cases on
    · right
      refine ⟨⟨lost', more⟩, ?_⟩
      rw [attempts]
      exact Finset.card_erase_lt_of_mem member

/-- **A late failure deafens.**  After it, the failure of the attempts that are still
pending leads to a state with room, no attempt and scanning off. -/
theorem deaf_after {e : Event} (taken : step s e = some t) (late : ¬ FailsInTime s e) :
    ∃ w, Leads step Event.AttemptFails t w ∧ ¬ NeverDeaf w := by
  apply Lost.deaf
  simp only [FailsInTime, Classical.not_imp] at late
  obtain ⟨fails, room, unrecorded⟩ := late
  cases e with
  | filterMatch created =>
      cases fails
      cases taken
      exact ⟨room, rfl, unrecorded⟩
  | filterNoMatch directed created =>
      obtain ⟨rfl, rfl⟩ := fails
      cases found : s.currConn.find none with
      | none => exact absurd room (not_room found)
      | some free =>
          simp only [step, scanFilterNoMatch, found, Option.ite_none_right_eq_some,
            Option.some.injEq, if_true] at taken
          obtain ⟨-, rfl⟩ := taken
          exact ⟨room, rfl, unrecorded⟩
  | connected conn err secured => exact fails.elim
  | disconnected conn => exact fails.elim
  | securityChanged conn => exact fails.elim

/-- A creation fails while another attempt is pending; that one fails as well. -/
def lateFailure : List Event :=
  [.filterMatch (some 1), .filterNoMatch true none, .connected 1 62 true]

theorem never_deaf_lateFailure :
    ∃ s, Reachable step (· = start) failsInTime s ∧ s.attempts = ∅ ∧ NeverDeaf s := by
  have found : (exec step failsInTime start lateFailure).any
      (fun s => decide (s.attempts = ∅)) = true := by
    decide +kernel
  obtain ⟨s, run, idle⟩ : ∃ s, Reachable step (· = start) failsInTime s ∧ _ = true :=
    exists_reachable_of_exec rfl found
  exact ⟨s, run, of_decide_eq_true idle, never_deaf run⟩

/-- **One failed creation is enough**: no attempt is pending, every slot is free and
scanning is off. -/
theorem deaf_after_filter_match :
    ¬ ∀ s, Reachable step (· = start) unguarded s → NeverDeaf s := by
  intro hears
  have run : Reachable step (· = start) unguarded (scanConnectingError (start.scan false)) :=
    .next (a := .filterMatch none) (.start rfl) rfl rfl
  have on : false = true := hears _ run ⟨⟨0, by decide⟩, rfl⟩ rfl
  cases on

end NcsExp.MultiLink
