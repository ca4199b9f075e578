/-
# NcsExp.MultiLink.Table -- the slots of the connections

`TableLaw` is what the two tables should be in every state: their entries are
distinct connections of their role, and exactly one reference is held to each entry
and none to anything else.  `EventLaw` is what an event may do to them: an entry stays
in its slot until its attempt fails or its connection ends, is gone then, what begins
while a slot is free is in its table afterwards, and a discovery is started with the
`bas` entry of its connection's slot.  Both hold in every run, whatever the host
reports (`reachable_tableLaw`, `step_eventLaw`).
-/
import NcsExp.MultiLink.Model

namespace NcsExp.MultiLink

open NcsExp.Theory

set_option autoImplicit false

/-- A reference is held of what is given back. -/
def OnHeld (past : List Call) : Call → Prop
  | .unref conn => 0 < refs past conn
  | _ => True

/-- One reference is held to each object of the kind, and none to any other. -/
def OneEach (calls : List Call) (kind : Conn → Prop) : Prop :=
  ∀ conn, (kind conn → refs calls conn = 1) ∧ (¬ kind conn → refs calls conn = 0)

/-- The two tables and the references. -/
structure TableLaw (s : App) : Prop where
  distinct : s.currConn.Distinct
  hrDistinct : s.hrConn.Distinct
  central : ∀ conn, s.currConn.Has conn → conn ∈ s.attempts ∨ conn ∈ s.centrals
  peripheral : ∀ conn, s.hrConn.Has conn → conn ∈ s.peripherals
  oneRole : ∀ conn ∈ s.peripherals, conn ∉ s.attempts ∧ conn ∉ s.centrals
  onHeld : Always OnHeld s.calls
  oneEach : OneEach s.calls fun conn => s.currConn.Has conn ∨ s.hrConn.Has conn

/-- The attempt or the connection ends with this event. -/
def Event.Ends (conn : Conn) : Event → Prop
  | .connected c err _ => c = conn ∧ err ≠ 0
  | .disconnected c => c = conn
  | _ => False

/-- The event begins an attempt, or is the connection of a peripheral. -/
def Event.Begins (conn : Conn) : Event → Prop
  | .filterMatch created => created = some conn
  | .filterNoMatch _ created => created = some conn
  | .connected c err _ => c = conn ∧ err = 0
  | _ => False

/-- The event begins an attempt. -/
def Event.Attempts (conn : Conn) : Event → Prop
  | .filterMatch created => created = some conn
  | .filterNoMatch directed created => directed = true ∧ created = some conn
  | _ => False

/-- The event is the connection of a peripheral. -/
def Event.Joins (s : App) (conn : Conn) : Event → Prop
  | .connected c err _ => c = conn ∧ err = 0 ∧ c ∉ s.attempts
  | _ => False

/-- What an event does to the tables. -/
structure EventLaw (s : App) (e : Event) (t : App) : Prop where
  stays : ∀ i conn, s.currConn i = some conn → ¬ e.Ends conn → t.currConn i = some conn
  hrStays : ∀ i conn, s.hrConn i = some conn → ¬ e.Ends conn → t.hrConn i = some conn
  gone : ∀ conn, e.Ends conn → ¬ t.currConn.Has conn ∧ ¬ t.hrConn.Has conn
  entered : ∀ conn, t.currConn.Has conn ∨ t.hrConn.Has conn →
    s.currConn.Has conn ∨ s.hrConn.Has conn ∨ e.Begins conn
  attempted : ∀ i conn, s.currConn i = none → e.Attempts conn → t.currConn.Has conn
  joined : ∀ i conn, s.hrConn i = none → e.Joins s conn → t.hrConn.Has conn
  discovers : ∃ new, t.calls = s.calls ++ new ∧
    ∀ conn bas, .discover conn bas ∈ new → ∃ i, bas = some i ∧ t.currConn i = some conn

/-! ## References -/

section

variable {calls : List Call} {conn c : Conn}

@[simp] theorem refs_leCreate :
    refs (calls ++ [Call.leCreate conn]) c =
      if conn = c then refs calls c + 1 else refs calls c :=
  held_means Call.refOp (.leCreate conn) rfl c

@[simp] theorem refs_ref :
    refs (calls ++ [Call.ref conn]) c = if conn = c then refs calls c + 1 else refs calls c :=
  held_means Call.refOp (.ref conn) rfl c

@[simp] theorem refs_unref :
    refs (calls ++ [Call.unref conn]) c = if conn = c then refs calls c - 1 else refs calls c :=
  held_means Call.refOp (.unref conn) rfl c

@[simp] theorem refs_discover {bas : Option (Fin NUM_CONN_MAX)} :
    refs (calls ++ [Call.discover conn bas]) c = refs calls c :=
  held_means_nothing Call.refOp (.discover conn bas) rfl c

end

/-- A reference taken to an object that joins the kind. -/
theorem OneEach.join {calls calls' : List Call} {kind kind' : Conn → Prop} {conn : Conn}
    (one : OneEach calls kind) (out : ¬ kind conn) (joins : ∀ c, kind' c ↔ c = conn ∨ kind c)
    (taken : ∀ c, refs calls' c = if conn = c then refs calls c + 1 else refs calls c) :
    OneEach calls' kind' := by
  intro c
  rw [taken c, joins c]
  by_cases same : conn = c
  · subst same
    simp [(one conn).2 out]
  · simpa [same, Ne.symm same] using one c

/-- The reference to an object that leaves the kind is given back. -/
theorem OneEach.leave {calls : List Call} {kind : Conn → Prop} {conn : Conn}
    (one : OneEach calls kind) (here : kind conn) (kind' : Conn → Prop)
    (leaves : ∀ c, kind' c ↔ c ≠ conn ∧ kind c) :
    0 < refs calls conn ∧ OneEach (calls ++ [Call.unref conn]) kind' := by
  have held := (one conn).1 here
  refine ⟨by omega, fun c => ?_⟩
  rw [refs_unref, leaves c]
  by_cases same : conn = c
  · subst same
    simp [held]
  · simpa [same, Ne.symm same] using one c

/-! ## The moves on the tables -/

namespace TableLaw

variable {s t : App} {conn : Conn} {i : Fin NUM_CONN_MAX}

theorem start : TableLaw start where
  distinct := Slots.distinct_empty
  hrDistinct := Slots.distinct_empty
  central _ here := (Slots.not_has_empty here).elim
  peripheral _ here := (Slots.not_has_empty here).elim
  oneRole := by simp [MultiLink.start]
  onHeld := always_nil
  oneEach _ := ⟨fun here => here.elim (absurd · Slots.not_has_empty)
    (absurd · Slots.not_has_empty), fun _ => rfl⟩

/-- A fresh object is in no table. -/
theorem fresh (law : TableLaw s) (fresh : Fresh s conn) :
    ¬ (s.currConn.Has conn ∨ s.hrConn.Has conn) := by
  intro here
  have one := (law.oneEach conn).1 here
  have none_ := fresh.2.2.2
  omega

/-- An entry of one table is in no slot of the other. -/
theorem apart (law : TableLaw s) (here : s.currConn.Has conn) : ¬ s.hrConn.Has conn := fun hr => by
  obtain ⟨noAttempt, noCentral⟩ := law.oneRole conn (law.peripheral conn hr)
  exact (law.central conn here).elim noAttempt noCentral

/-- The host's knowledge changes, every entry keeping its role. -/
theorem relink (law : TableLaw s) {attempts centrals peripherals : Finset Conn}
    (central : ∀ c, s.currConn.Has c → c ∈ attempts ∨ c ∈ centrals)
    (peripheral : ∀ c, s.hrConn.Has c → c ∈ peripherals)
    (oneRole : ∀ c ∈ peripherals, c ∉ attempts ∧ c ∉ centrals) :
    TableLaw { s with attempts := attempts, centrals := centrals, peripherals := peripherals } :=
  ⟨law.distinct, law.hrDistinct, central, peripheral, oneRole, law.onHeld, law.oneEach⟩

/-- An attempt begins. -/
theorem attempt (law : TableLaw s) (fresh : Fresh s conn) : TableLaw (s.attempt conn) := by
  refine law.relink (fun c here => ?_) law.peripheral fun c peripheral => ?_
  · exact (law.central c here).imp_left Finset.mem_insert_of_mem
  · obtain ⟨noAttempt, noCentral⟩ := law.oneRole c peripheral
    refine ⟨fun member => ?_, noCentral⟩
    rcases Finset.mem_insert.mp member with rfl | before
    · exact fresh.2.2.1 peripheral
    · exact noAttempt before

/-- Scanning plays no part. -/
theorem scan (law : TableLaw s) (on : Bool) : TableLaw (s.scan on) :=
  ⟨law.distinct, law.hrDistinct, law.central, law.peripheral, law.oneRole, law.onHeld, law.oneEach⟩

/-- Nor does a discovery. -/
theorem discover (law : TableLaw s) (bas : Option (Fin NUM_CONN_MAX)) :
    TableLaw (s.call (.discover conn bas)) := by
  refine ⟨law.distinct, law.hrDistinct, law.central, law.peripheral, law.oneRole,
    always_snoc.mpr ⟨law.onHeld, trivial⟩, fun c => ?_⟩
  rw [App.call, refs_discover]
  exact law.oneEach c

/-- A central connection enters a free slot with its reference. -/
theorem enter (law : TableLaw s) (free : s.currConn i = none)
    (out : ¬ (s.currConn.Has conn ∨ s.hrConn.Has conn))
    (role : conn ∈ s.attempts ∨ conn ∈ s.centrals) {calls : List Call}
    (onHeld : Always OnHeld calls)
    (taken : ∀ c, refs calls c = if conn = c then refs s.calls c + 1 else refs s.calls c) :
    TableLaw { s with currConn := s.currConn.store i (some conn), calls := calls } where
  distinct := law.distinct.store (not_or.mp out).1
  hrDistinct := law.hrDistinct
  central c here := by
    rcases (Slots.has_store free).mp here with rfl | before
    · exact role
    · exact law.central c before
  peripheral := law.peripheral
  oneRole := law.oneRole
  onHeld := onHeld
  oneEach := law.oneEach.join out (fun c => by rw [Slots.has_store free, or_assoc]) taken

/-- A central connection leaves its slot and gives its reference back. -/
theorem leave (law : TableLaw s) (here : s.currConn i = some conn) :
    TableLaw ((s.call (.unref conn)).storeCurr i none) := by
  have has : s.currConn.Has conn := ⟨i, here⟩
  have notHr := law.apart has
  obtain ⟨held, oneEach⟩ := law.oneEach.leave (Or.inl has)
    (fun c => (s.currConn.store i none).Has c ∨ s.hrConn.Has c) fun c => by
      rw [Slots.has_clear law.distinct here, and_or_left]
      refine or_congr_right (iff_and_self.mpr fun hr same => notHr (same ▸ hr))
  refine ⟨law.distinct.clear, law.hrDistinct, fun c there => ?_, law.peripheral, law.oneRole,
    always_snoc.mpr ⟨law.onHeld, held⟩, oneEach⟩
  exact law.central c ((Slots.has_clear law.distinct here).mp there).2

/-- A peripheral connection enters a free slot with its reference. -/
theorem enterHr (law : TableLaw s) (free : s.hrConn i = none)
    (out : ¬ (s.currConn.Has conn ∨ s.hrConn.Has conn)) (role : conn ∈ s.peripherals) :
    TableLaw ((s.call (.ref conn)).storeHr i (some conn)) := by
  refine ⟨law.distinct, law.hrDistinct.store (not_or.mp out).2, law.central, fun c there => ?_,
    law.oneRole, always_snoc.mpr ⟨law.onHeld, trivial⟩,
    law.oneEach.join out (fun c => ?_) fun c => refs_ref⟩
  · rcases (Slots.has_store free).mp there with rfl | before
    · exact role
    · exact law.peripheral c before
  · change s.currConn.Has c ∨ (s.hrConn.store i (some conn)).Has c ↔ _
    rw [Slots.has_store free, or_left_comm]

/-- A peripheral connection leaves its slot and gives its reference back. -/
theorem leaveHr (law : TableLaw s) (here : s.hrConn i = some conn) :
    TableLaw ((s.call (.unref conn)).storeHr i none) := by
  have has : s.hrConn.Has conn := ⟨i, here⟩
  have notCurr : ¬ s.currConn.Has conn := fun curr => law.apart curr has
  obtain ⟨held, oneEach⟩ := law.oneEach.leave (Or.inr has)
    (fun c => s.currConn.Has c ∨ (s.hrConn.store i none).Has c) fun c => by
      rw [Slots.has_clear law.hrDistinct here, and_or_left]
      refine or_congr_left (iff_and_self.mpr fun curr same => notCurr (same ▸ curr))
  refine ⟨law.distinct, law.hrDistinct.clear, law.central, fun c there => ?_, law.oneRole,
    always_snoc.mpr ⟨law.onHeld, held⟩, oneEach⟩
  exact law.peripheral c ((Slots.has_clear law.hrDistinct here).mp there).2

end TableLaw

/-! ## The handlers -/

section

variable {s : App} {conn : Conn}

theorem tableLaw_scanConnecting (law : TableLaw s) (fresh : Fresh s conn) :
    TableLaw (scanConnecting ((s.scan false).attempt conn) conn) := by
  have begun := (law.scan false).attempt fresh
  unfold scanConnecting
  split
  · rename_i room found
    exact begun.enter (Slots.find_eq_some found) (law.fresh fresh)
      (Or.inl (Finset.mem_insert_self ..)) (always_snoc.mpr ⟨begun.onHeld, trivial⟩)
      fun c => refs_ref
  · exact begun

theorem tableLaw_scanFilterNoMatch (law : TableLaw s) (directed : Bool) {created : Option Conn}
    (fresh : ∀ conn ∈ created, Fresh s conn) : TableLaw (scanFilterNoMatch s directed created) := by
  unfold scanFilterNoMatch
  split
  · split
    · rename_i room found
      cases created with
      | none => exact law.scan false
      | some conn =>
          have fresh := fresh conn rfl
          have begun := (law.scan false).attempt fresh
          -- the reference of `bt_conn_le_create` goes back once the table has its own
          refine begun.enter (Slots.find_eq_some found) (law.fresh fresh)
            (Or.inl (Finset.mem_insert_self ..)) ?_ fun c => ?_
          · have taken : 0 < refs (s.calls ++ [Call.leCreate conn] ++ [Call.ref conn]) conn := by
              rw [refs_ref, if_pos rfl]
              omega
            exact always_snoc.mpr ⟨always_snoc.mpr ⟨always_snoc.mpr ⟨law.onHeld, trivial⟩,
              trivial⟩, taken⟩
          · change refs (s.calls ++ [Call.leCreate conn] ++ [Call.ref conn] ++
              [Call.unref conn]) c = _
            simp only [refs_unref, refs_ref, refs_leCreate]
            split <;> rfl
    · exact law
  · exact law

theorem tableLaw_gattDiscover (law : TableLaw s) : TableLaw (gattDiscover s conn) := by
  unfold gattDiscover
  split
  · exact law
  · exact law.discover _

theorem tableLaw_connectedCentral (law : TableLaw s) (connErr : UInt8) (secured : Bool) :
    TableLaw (connectedCentral s conn connErr secured) := by
  unfold connectedCentral
  split
  · split
    · rename_i found
      exact (law.leave (Slots.find_eq_some found)).scan true
    · exact law
  · have discovered : TableLaw (if secured then s else gattDiscover s conn) := by
      split
      · exact law
      · exact tableLaw_gattDiscover law
    dsimp only
    split
    · exact discovered.scan true
    · exact discovered

theorem tableLaw_disconnectedCentral (law : TableLaw s) :
    TableLaw (disconnectedCentral s conn) := by
  unfold disconnectedCentral
  split
  · rename_i found
    exact (law.leave (Slots.find_eq_some found)).scan true
  · exact law.scan true

theorem tableLaw_btHrConnected (law : TableLaw s)
    (out : ¬ (s.currConn.Has conn ∨ s.hrConn.Has conn)) {err : UInt8}
    (role : err = 0 → conn ∈ s.peripherals) :
    TableLaw (btHrConnected s conn err) := by
  unfold btHrConnected
  split
  · exact law
  · rename_i succeeded
    split
    · rename_i room found
      exact law.enterHr (Slots.find_eq_some found) out (role (not_not.mp succeeded))
    · exact law

theorem tableLaw_btHrDisconnected (law : TableLaw s) : TableLaw (btHrDisconnected s conn) := by
  unfold btHrDisconnected
  split
  · rename_i found
    exact law.leaveHr (Slots.find_eq_some found)
  · exact law

end

/-! ## What a handler leaves of the tables -/

section

variable (s : App) (conn : Conn)

theorem links_gattDiscover :
    (gattDiscover s conn).attempts = s.attempts ∧ (gattDiscover s conn).centrals = s.centrals ∧
      (gattDiscover s conn).peripherals = s.peripherals := by
  unfold gattDiscover
  split <;> exact ⟨rfl, rfl, rfl⟩

/-- The handlers know nothing of what the host knows. -/
theorem links_connectedCentral (err : UInt8) (secured : Bool) :
    (connectedCentral s conn err secured).attempts = s.attempts ∧
      (connectedCentral s conn err secured).centrals = s.centrals ∧
      (connectedCentral s conn err secured).peripherals = s.peripherals := by
  have discovered := links_gattDiscover s conn
  unfold connectedCentral
  dsimp only
  split
  · split <;> exact ⟨rfl, rfl, rfl⟩
  · cases secured <;> simp only [Bool.false_eq_true, if_false, if_true] <;> split
    · exact discovered
    · exact discovered
    · exact ⟨rfl, rfl, rfl⟩
    · exact ⟨rfl, rfl, rfl⟩

variable {s conn}

/-- A failed attempt has left its slot. -/
theorem gone_connectedCentral (law : TableLaw s) {err : UInt8} (failed : err ≠ 0)
    (secured : Bool) : ¬ (connectedCentral s conn err secured).currConn.Has conn := by
  unfold connectedCentral
  rw [if_pos failed]
  split
  · rename_i found
    exact fun here => ((Slots.has_clear law.distinct (Slots.find_eq_some found)).mp here).1 rfl
  · rename_i missing
    exact Slots.not_has_of_find_eq_none missing

theorem gone_disconnectedCentral (law : TableLaw s) :
    ¬ (disconnectedCentral s conn).currConn.Has conn := by
  unfold disconnectedCentral
  split
  · rename_i found
    exact fun here => ((Slots.has_clear law.distinct (Slots.find_eq_some found)).mp here).1 rfl
  · rename_i missing
    exact Slots.not_has_of_find_eq_none missing

theorem gone_btHrDisconnected (law : TableLaw s) :
    ¬ (btHrDisconnected s conn).hrConn.Has conn := by
  unfold btHrDisconnected
  split
  · rename_i found
    exact fun here => ((Slots.has_clear law.hrDistinct (Slots.find_eq_some found)).mp here).1 rfl
  · rename_i missing
    exact Slots.not_has_of_find_eq_none missing

end

/-! ## Every event keeps the law -/

section

variable {s : App} {conn : Conn}

/-- The host reports the end of an attempt. -/
theorem tableLaw_reported (law : TableLaw s) (attempt : conn ∈ s.attempts) (err : UInt8)
    (failed : err ≠ 0 → ¬ s.currConn.Has conn) :
    TableLaw { s with
      attempts := s.attempts.erase conn
      centrals := if err = 0 then insert conn s.centrals else s.centrals } := by
  refine law.relink (fun c here => ?_) law.peripheral fun c peripheral => ?_
  · by_cases same : c = conn
    · subst same
      have succeeded : err = 0 := by_contra fun failed_ => failed failed_ here
      simp [succeeded]
    · refine (law.central c here).imp (Finset.mem_erase.mpr ⟨same, ·⟩) fun central => ?_
      split
      · exact Finset.mem_insert_of_mem central
      · exact central
  · obtain ⟨noAttempt, noCentral⟩ := law.oneRole c peripheral
    have other : c ≠ conn := by
      rintro rfl
      exact noAttempt attempt
    refine ⟨fun member => noAttempt (Finset.mem_of_mem_erase member), ?_⟩
    split
    · exact fun member => (Finset.mem_insert.mp member).elim other noCentral
    · exact noCentral

/-- The host reports the end of a connection in the central role. -/
theorem tableLaw_centralDown (law : TableLaw s) (gone : ¬ s.currConn.Has conn) :
    TableLaw { s with centrals := s.centrals.erase conn } := by
  refine law.relink (fun c here => ?_) law.peripheral fun c peripheral => ?_
  · have other : c ≠ conn := by
      rintro rfl
      exact gone here
    exact (law.central c here).imp_right (Finset.mem_erase.mpr ⟨other, ·⟩)
  · obtain ⟨noAttempt, noCentral⟩ := law.oneRole c peripheral
    exact ⟨noAttempt, fun member => noCentral (Finset.mem_of_mem_erase member)⟩

/-- The host reports the end of a connection in the peripheral role. -/
theorem tableLaw_peripheralDown (law : TableLaw s) (gone : ¬ s.hrConn.Has conn) :
    TableLaw { s with peripherals := s.peripherals.erase conn } := by
  refine law.relink law.central (fun c here => ?_) fun c peripheral => ?_
  · have other : c ≠ conn := by
      rintro rfl
      exact gone here
    exact Finset.mem_erase.mpr ⟨other, law.peripheral c here⟩
  · exact law.oneRole c (Finset.mem_of_mem_erase peripheral)

/-- The host reports a connection in the peripheral role. -/
theorem tableLaw_peripheralUp (law : TableLaw s) (fresh : Fresh s conn) :
    TableLaw { s with peripherals := insert conn s.peripherals } := by
  refine law.relink law.central (fun c here => Finset.mem_insert_of_mem (law.peripheral c here))
    fun c peripheral => ?_
  rcases Finset.mem_insert.mp peripheral with rfl | before
  · exact ⟨fresh.1, fresh.2.1⟩
  · exact law.oneRole c before

end

theorem step_tableLaw {s t : App} {e : Event} (law : TableLaw s) (taken : step s e = some t) :
    TableLaw t := by
  cases e with
  | filterMatch created =>
      cases created with
      | none =>
          cases taken
          exact law.scan false
      | some conn =>
          simp only [step, Option.ite_none_right_eq_some, Option.some.injEq] at taken
          obtain ⟨fresh, rfl⟩ := taken
          exact tableLaw_scanConnecting law fresh
  | filterNoMatch directed created =>
      simp only [step, Option.ite_none_right_eq_some, Option.some.injEq] at taken
      obtain ⟨fresh, rfl⟩ := taken
      exact tableLaw_scanFilterNoMatch law directed fresh
  | connected conn err secured =>
      simp only [step] at taken
      split at taken
      · rename_i attempt
        cases taken
        refine tableLaw_reported (tableLaw_connectedCentral law err secured) ?_ err
          fun failed => gone_connectedCentral law failed secured
        rwa [(links_connectedCentral s conn err secured).1]
      · simp only [Option.ite_none_right_eq_some, Option.some.injEq] at taken
        obtain ⟨fresh, rfl⟩ := taken
        split
        · exact tableLaw_btHrConnected (tableLaw_peripheralUp law fresh) (law.fresh fresh)
            fun _ => Finset.mem_insert_self ..
        · rename_i failed
          exact tableLaw_btHrConnected law (law.fresh fresh)
            fun succeeded => absurd succeeded failed
  | disconnected conn =>
      simp only [step] at taken
      split at taken
      · cases taken
        exact tableLaw_centralDown (tableLaw_disconnectedCentral law) (gone_disconnectedCentral law)
      · simp only [Option.ite_none_right_eq_some, Option.some.injEq] at taken
        obtain ⟨-, rfl⟩ := taken
        exact tableLaw_peripheralDown (tableLaw_btHrDisconnected law) (gone_btHrDisconnected law)
  | securityChanged conn =>
      simp only [step, Option.ite_none_right_eq_some, Option.some.injEq] at taken
      obtain ⟨-, rfl⟩ := taken
      exact tableLaw_gattDiscover law

theorem reachable_tableLaw {ok : App → Event → Bool} {s : App}
    (run : Reachable step (· = start) ok s) : TableLaw s := by
  apply run.invariant
  · rintro s rfl
    exact .start
  · intro s e t law _ taken
    exact step_tableLaw law taken

/-! ## What an event does to the tables -/

/-- `t` is `s` after some calls, in which a discovery has the `bas` entry of its
connection's slot. -/
def Discovers (s t : App) : Prop :=
  ∃ new, t.calls = s.calls ++ new ∧
    ∀ conn bas, .discover conn bas ∈ new → ∃ i, bas = some i ∧ t.currConn i = some conn

theorem Discovers.of_calls {s t : App} (new : List Call) (calls : t.calls = s.calls ++ new)
    (plain : ∀ conn bas, .discover conn bas ∉ new) : Discovers s t :=
  ⟨new, calls, fun conn bas member => absurd member (plain conn bas)⟩

section

variable (s : App) (conn : Conn)

theorem discovers_gattDiscover :
    Discovers s (gattDiscover s conn) ∧ (gattDiscover s conn).currConn = s.currConn ∧
      (gattDiscover s conn).hrConn = s.hrConn := by
  unfold gattDiscover
  split
  · exact ⟨.of_calls [] (by simp) (by simp), rfl, rfl⟩
  · rename_i room found
    refine ⟨⟨[.discover conn (findBasClient s conn)], rfl, fun c bas member => ?_⟩, rfl, rfl⟩
    cases List.mem_singleton.mp member
    exact ⟨room, found, Slots.find_eq_some found⟩

theorem changes_scanConnecting :
    let t := scanConnecting ((s.scan false).attempt conn) conn
    Slots.Change s.currConn (· = conn) (fun _ => False) t.currConn ∧ t.hrConn = s.hrConn ∧
      Discovers s t := by
  unfold scanConnecting
  dsimp only
  split
  · rename_i room found
    exact ⟨.enter (Slots.find_eq_some found) rfl, rfl, .of_calls [.ref conn] rfl (by simp)⟩
  · exact ⟨.same, rfl, .of_calls [] (List.append_nil _).symm (by simp)⟩

theorem changes_scanFilterNoMatch (s : App) (directed : Bool) (created : Option Conn) :
    let t := scanFilterNoMatch s directed created
    Slots.Change s.currConn (fun c => created = some c) (fun _ => False) t.currConn ∧
      t.hrConn = s.hrConn ∧ Discovers s t := by
  have nothing : Discovers s s := .of_calls [] (by simp) (by simp)
  unfold scanFilterNoMatch
  dsimp only
  split
  · split
    · rename_i room found
      cases created with
      | none => exact ⟨.same, rfl, .of_calls [] (List.append_nil _).symm (by simp)⟩
      | some conn =>
          exact ⟨.enter (Slots.find_eq_some found) rfl, rfl,
            .of_calls [.leCreate conn, .ref conn, .unref conn] (by simp [App.call, App.storeCurr,
              App.attempt, App.scan]) (by simp)⟩
    · exact ⟨.same, rfl, nothing⟩
  · exact ⟨.same, rfl, nothing⟩

theorem changes_connectedCentral (err : UInt8) (secured : Bool) :
    let t := connectedCentral s conn err secured
    Slots.Change s.currConn (fun _ => False) (fun c => conn = c ∧ err ≠ 0) t.currConn ∧
      t.hrConn = s.hrConn ∧ Discovers s t := by
  unfold connectedCentral
  dsimp only
  split
  · rename_i failed
    split
    · rename_i found
      exact ⟨.leave (Slots.find_eq_some found) ⟨rfl, failed⟩, rfl,
        .of_calls [.unref conn] rfl (by simp)⟩
    · exact ⟨.same, rfl, .of_calls [] (by simp) (by simp)⟩
  · have discovered : Discovers s (if secured then s else gattDiscover s conn) ∧
        (if secured then s else gattDiscover s conn).currConn = s.currConn ∧
        (if secured then s else gattDiscover s conn).hrConn = s.hrConn := by
      split
      · exact ⟨.of_calls [] (by simp) (by simp), rfl, rfl⟩
      · exact discovers_gattDiscover s conn
    obtain ⟨discovers, curr, hr⟩ := discovered
    split
    · exact ⟨.of_eq curr, hr, discovers⟩
    · exact ⟨.of_eq curr, hr, discovers⟩

theorem changes_disconnectedCentral :
    let t := disconnectedCentral s conn
    Slots.Change s.currConn (fun _ => False) (conn = ·) t.currConn ∧ t.hrConn = s.hrConn ∧
      Discovers s t := by
  unfold disconnectedCentral
  dsimp only
  split
  · rename_i found
    exact ⟨.leave (Slots.find_eq_some found) rfl, rfl, .of_calls [.unref conn] rfl (by simp)⟩
  · exact ⟨.same, rfl, .of_calls [] (List.append_nil _).symm (by simp)⟩

theorem changes_btHrConnected (err : UInt8) :
    let t := btHrConnected s conn err
    Slots.Change s.hrConn (fun c => conn = c ∧ err = 0) (fun _ => False) t.hrConn ∧
      t.currConn = s.currConn ∧ Discovers s t := by
  have nothing : Discovers s s := .of_calls [] (by simp) (by simp)
  unfold btHrConnected
  dsimp only
  split
  · exact ⟨.same, rfl, nothing⟩
  · rename_i succeeded
    split
    · rename_i room found
      exact ⟨.enter (Slots.find_eq_some found) ⟨rfl, not_not.mp succeeded⟩, rfl,
        .of_calls [.ref conn] rfl (by simp)⟩
    · exact ⟨.same, rfl, nothing⟩

theorem changes_btHrDisconnected :
    let t := btHrDisconnected s conn
    Slots.Change s.hrConn (fun _ => False) (conn = ·) t.hrConn ∧ t.currConn = s.currConn ∧
      Discovers s t := by
  unfold btHrDisconnected
  dsimp only
  split
  · rename_i found
    exact ⟨.leave (Slots.find_eq_some found) rfl, rfl, .of_calls [.unref conn] rfl (by simp)⟩
  · exact ⟨.same, rfl, .of_calls [] (by simp) (by simp)⟩

end

/-- An event changes each table in at most one slot. -/
theorem step_changes {s t : App} {e : Event} (taken : step s e = some t) :
    Slots.Change s.currConn (e.Begins ·) (e.Ends ·) t.currConn ∧
      Slots.Change s.hrConn (e.Begins ·) (e.Ends ·) t.hrConn ∧ Discovers s t := by
  cases e with
  | filterMatch created =>
      cases created with
      | none =>
          cases taken
          exact ⟨.same, .same, .of_calls [] (List.append_nil _).symm (by simp)⟩
      | some conn =>
          simp only [step, Option.ite_none_right_eq_some, Option.some.injEq] at taken
          obtain ⟨-, rfl⟩ := taken
          obtain ⟨curr, hr, discovers⟩ := changes_scanConnecting s conn
          exact ⟨curr.mono (fun c same => congrArg some same.symm) (fun _ => False.elim),
            .of_eq hr, discovers⟩
  | filterNoMatch directed created =>
      simp only [step, Option.ite_none_right_eq_some, Option.some.injEq] at taken
      obtain ⟨-, rfl⟩ := taken
      obtain ⟨curr, hr, discovers⟩ := changes_scanFilterNoMatch s directed created
      exact ⟨curr.mono (fun c same => same) (fun _ => False.elim), .of_eq hr, discovers⟩
  | connected conn err secured =>
      simp only [step] at taken
      split at taken
      · cases taken
        obtain ⟨curr, hr, discovers⟩ := changes_connectedCentral s conn err secured
        exact ⟨curr.mono (fun _ => False.elim) (fun c ends => ends), .of_eq hr, discovers⟩
      · simp only [Option.ite_none_right_eq_some, Option.some.injEq] at taken
        obtain ⟨-, rfl⟩ := taken
        split
        · obtain ⟨hr, curr, discovers⟩ := changes_btHrConnected
            { s with peripherals := insert conn s.peripherals } conn err
          exact ⟨.of_eq curr, hr.mono (fun c begins => begins) (fun _ => False.elim), discovers⟩
        · obtain ⟨hr, curr, discovers⟩ := changes_btHrConnected s conn err
          exact ⟨.of_eq curr, hr.mono (fun c begins => begins) (fun _ => False.elim), discovers⟩
  | disconnected conn =>
      simp only [step] at taken
      split at taken
      · cases taken
        obtain ⟨curr, hr, discovers⟩ := changes_disconnectedCentral s conn
        exact ⟨curr.mono (fun _ => False.elim) (fun c ends => ends), .of_eq hr, discovers⟩
      · simp only [Option.ite_none_right_eq_some, Option.some.injEq] at taken
        obtain ⟨-, rfl⟩ := taken
        obtain ⟨hr, curr, discovers⟩ := changes_btHrDisconnected s conn
        exact ⟨.of_eq curr, hr.mono (fun _ => False.elim) (fun c ends => ends), discovers⟩
  | securityChanged conn =>
      simp only [step, Option.ite_none_right_eq_some, Option.some.injEq] at taken
      obtain ⟨-, rfl⟩ := taken
      obtain ⟨discovers, curr, hr⟩ := discovers_gattDiscover s conn
      exact ⟨.of_eq curr, .of_eq hr, discovers⟩

/-- What ends is in no table afterwards. -/
theorem step_gone {s t : App} {e : Event} (law : TableLaw s) (taken : step s e = some t)
    {conn : Conn} (ends : e.Ends conn) : ¬ t.currConn.Has conn ∧ ¬ t.hrConn.Has conn := by
  cases e with
  | filterMatch created => exact ends.elim
  | filterNoMatch directed created => exact ends.elim
  | connected c err secured =>
      obtain ⟨rfl, failed⟩ := ends
      simp only [step] at taken
      split at taken
      · rename_i attempt
        cases taken
        refine ⟨gone_connectedCentral law failed secured, fun here => ?_⟩
        have here : (connectedCentral s c err secured).hrConn.Has c := here
        rw [(changes_connectedCentral s c err secured).2.1] at here
        exact (law.oneRole c (law.peripheral c here)).1 attempt
      · simp only [Option.ite_none_right_eq_some, Option.some.injEq] at taken
        obtain ⟨fresh, rfl⟩ := taken
        rw [btHrConnected, if_pos failed]
        exact not_or.mp (law.fresh fresh)
  | disconnected c =>
      obtain rfl : c = conn := ends
      simp only [step] at taken
      split at taken
      · rename_i central
        cases taken
        refine ⟨gone_disconnectedCentral law, fun here => ?_⟩
        have here : (disconnectedCentral s c).hrConn.Has c := here
        rw [(changes_disconnectedCentral s c).2.1] at here
        exact (law.oneRole c (law.peripheral c here)).2 central
      · simp only [Option.ite_none_right_eq_some, Option.some.injEq] at taken
        obtain ⟨peripheral, rfl⟩ := taken
        refine ⟨fun here => ?_, gone_btHrDisconnected law⟩
        have here : (btHrDisconnected s c).currConn.Has c := here
        rw [(changes_btHrDisconnected s c).2.1] at here
        obtain ⟨noAttempt, noCentral⟩ := law.oneRole c peripheral
        exact (law.central c here).elim noAttempt noCentral
  | securityChanged c => exact ends.elim

/-- Where a slot is free, an attempt takes one. -/
theorem step_attempted {s t : App} {e : Event} (taken : step s e = some t) {i : Fin NUM_CONN_MAX}
    {conn : Conn} (free : s.currConn i = none) (attempts : e.Attempts conn) :
    t.currConn.Has conn := by
  obtain ⟨room, found⟩ := Slots.exists_find free
  cases e with
  | filterMatch created =>
      obtain rfl : created = some conn := attempts
      simp only [step, Option.ite_none_right_eq_some, Option.some.injEq] at taken
      obtain ⟨-, rfl⟩ := taken
      have found : ((s.scan false).attempt conn).currConn.find none = some room := found
      rw [scanConnecting, found]
      exact ⟨room, Slots.store_same _⟩
  | filterNoMatch directed created =>
      obtain ⟨rfl, rfl⟩ := attempts
      simp only [step, Option.ite_none_right_eq_some, Option.some.injEq] at taken
      obtain ⟨-, rfl⟩ := taken
      rw [scanFilterNoMatch, if_pos rfl, found]
      exact ⟨room, Slots.store_same _⟩
  | connected c err secured => exact attempts.elim
  | disconnected c => exact attempts.elim
  | securityChanged c => exact attempts.elim

/-- And so does a connection as peripheral. -/
theorem step_joined {s t : App} {e : Event} (taken : step s e = some t) {i : Fin NUM_CONN_MAX}
    {conn : Conn} (free : s.hrConn i = none) (joins : e.Joins s conn) : t.hrConn.Has conn := by
  obtain ⟨room, found⟩ := Slots.exists_find free
  cases e with
  | filterMatch created => exact joins.elim
  | filterNoMatch directed created => exact joins.elim
  | connected c err secured =>
      obtain ⟨rfl, rfl, incoming⟩ := joins
      rw [step, if_neg incoming] at taken
      simp only [Option.ite_none_right_eq_some, Option.some.injEq] at taken
      obtain ⟨-, rfl⟩ := taken
      rw [if_pos trivial, btHrConnected, if_neg (not_not.mpr rfl)]
      dsimp only
      rw [found]
      exact ⟨room, Slots.store_same _⟩
  | disconnected c => exact joins.elim
  | securityChanged c => exact joins.elim

theorem step_eventLaw {s t : App} {e : Event} (law : TableLaw s) (taken : step s e = some t) :
    EventLaw s e t := by
  obtain ⟨curr, hr, discovers⟩ := step_changes taken
  refine ⟨fun i c here kept => curr.stays here kept, fun i c here kept => hr.stays here kept,
    fun c ends => step_gone law taken ends, fun c here => ?_,
    fun i c free attempts => step_attempted taken free attempts,
    fun i c free joins => step_joined taken free joins, discovers⟩
  rcases here with there | there
  · rcases curr.entered there with before | begins
    · exact Or.inl before
    · exact Or.inr (Or.inr begins)
  · rcases hr.entered there with before | begins
    · exact Or.inr (Or.inl before)
    · exact Or.inr (Or.inr begins)

/-- As many references were given back as were taken. -/
def GivenBack (calls : List Call) (conn : Conn) : Prop :=
  (calls.filterMap Call.refOp).count (.take conn) = (calls.filterMap Call.refOp).count (.drop conn)

theorem givenBack {s : App} (law : TableLaw s) {conn : Conn}
    (out : ¬ (s.currConn.Has conn ∨ s.hrConn.Has conn)) : GivenBack s.calls conn := by
  refine count_take_eq_of_released (law.onHeld.filterMap fun past now op moment means => ?_)
    ((law.oneEach conn).2 out)
  cases now with
  | leCreate c => cases means; trivial
  | ref c => cases means; trivial
  | unref c => cases means; exact moment
  | discover c bas => cases means

/-- **The slots of the connections.**  In every state of every run the tables obey
their law, every event treats them as it should, and every reference to a connection
that is in no table has been given back. -/
theorem connection_slots {ok : App → Event → Bool} {s : App}
    (run : Reachable step (· = start) ok s) :
    TableLaw s ∧ (∀ e t, step s e = some t → EventLaw s e t) ∧
      ∀ conn, ¬ (s.currConn.Has conn ∨ s.hrConn.Has conn) → GivenBack s.calls conn :=
  have law := reachable_tableLaw run
  ⟨law, fun _ _ taken => step_eventLaw law taken, fun _ out => givenBack law out⟩

/-- Two attempts by either path, of which one fails, and two connections as peripheral. -/
def fourLinks : List Event :=
  [.filterMatch (some 1), .filterNoMatch true (some 2), .connected 1 0 false,
    .connected 3 0 true, .securityChanged 1, .connected 2 62 true, .disconnected 3,
    .connected 4 0 true]

theorem connection_slots_fourLinks :
    ∃ s, Reachable step (· = start) unguarded s ∧ s.currConn.Has 1 ∧ s.hrConn.Has 4 ∧
      TableLaw s ∧ GivenBack s.calls 2 ∧ GivenBack s.calls 3 := by
  have found : (exec step unguarded start fourLinks).any (fun s =>
      decide (s.currConn.Has 1 ∧ s.hrConn.Has 4 ∧ ¬ (s.currConn.Has 2 ∨ s.hrConn.Has 2) ∧
        ¬ (s.currConn.Has 3 ∨ s.hrConn.Has 3))) = true := by
    decide +kernel
  obtain ⟨s, run, holds⟩ : ∃ s, Reachable step (· = start) unguarded s ∧ _ = true :=
    exists_reachable_of_exec rfl found
  obtain ⟨central, peripheral, failed, ended⟩ := of_decide_eq_true holds
  obtain ⟨law, -, given⟩ := connection_slots run
  exact ⟨s, run, central, peripheral, law, given 2 failed, given 3 ended⟩

end NcsExp.MultiLink
