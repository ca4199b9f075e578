/-
# NcsExp.Throughput.Config -- does each wait see its own procedure?

A call that returns 0 should have seen, after each of its requests and before the
next one, the update that was requested (`Answered`).  One semaphore serves all the
callbacks, so a give that is left over, or that another callback makes during the
wait, ends the wait as well (`left_over_give_ends_wait`).  In the runs where neither
happens (`ownGives`) every call that returns 0 was answered (`config_answered`).

`book` follows the log of a call, and is settled exactly while every request so far
has been answered.
-/
import NcsExp.Theory.History
import NcsExp.Throughput.Model

namespace NcsExp.Throughput

open NcsExp.Theory

set_option autoImplicit false

/-! ## Answers -/

def Entry.isRequest : Entry → Bool
  | .requested _ => true
  | _ => false

/-- The update of `p` comes before the next request. -/
def Answered (p : Procedure) (after : List Entry) : Prop :=
  .updated p ∈ after.takeWhile fun e => !e.isRequest

/-- A call that returns 0 now: each of its requests was answered. -/
def Paired (past : List Entry) (now : Entry) : Prop :=
  now = .returned 0 → ∀ before p after, past = before ++ .requested p :: after →
    .called ∉ after → Answered p after

/-- Whether the requests of the current call have been answered in turn. -/
inductive Book
  | settled
  | waiting (p : Procedure)
  | broken
  deriving DecidableEq

def Book.next : Book → Entry → Book
  | _, .called => .settled
  | .settled, .requested p => .waiting p
  | _, .requested _ => .broken
  | .waiting p, .updated q => if p = q then .settled else .waiting p
  | b, _ => b

def book (log : List Entry) : Book := present Book.next .settled log

theorem broken_stays {after : List Entry} (same : .called ∉ after) :
    after.foldl Book.next .broken = .broken := by
  induction after with
  | nil => rfl
  | cons e rest ih =>
      rw [List.mem_cons, not_or] at same
      cases e with
      | called => exact absurd rfl same.1
      | _ => exact ih same.2

/-- A request that is settled in the end was answered. -/
theorem answered_of_waiting {p : Procedure} {after : List Entry} (same : .called ∉ after)
    (settled : after.foldl Book.next (.waiting p) = .settled) : Answered p after := by
  induction after with
  | nil => cases settled
  | cons e rest ih =>
      rw [List.mem_cons, not_or] at same
      have later : rest.foldl Book.next (.waiting p) = .settled → e.isRequest = false →
          Answered p (e :: rest) := by
        intro settled other
        unfold Answered
        rw [List.takeWhile_cons_of_pos (by simp [other])]
        exact List.mem_cons_of_mem _ (ih same.2 settled)
      cases e with
      | called => exact absurd rfl same.1
      | requested q =>
          rw [List.foldl_cons] at settled
          exact absurd ((broken_stays same.2).symm.trans settled) (by simp)
      | updated q =>
          by_cases own : p = q
          · subst own
            unfold Answered
            rw [List.takeWhile_cons_of_pos rfl]
            exact List.mem_cons_self
          · rw [List.foldl_cons, Book.next, if_neg own] at settled
            exact later settled rfl
      | dataRead => exact later settled rfl
      | returned err => exact later settled rfl

/-- **A settled book.**  Every request of the current call was answered. -/
theorem paired_of_settled {log : List Entry} (settled : book log = .settled) (now : Entry) :
    Paired log now := by
  rintro _ before p after rfl same
  unfold book present at settled
  rw [List.foldl_append, List.foldl_cons] at settled
  cases was : before.foldl Book.next .settled with
  | settled =>
      rw [was] at settled
      exact answered_of_waiting same settled
  | waiting q =>
      rw [was] at settled
      exact absurd ((broken_stays same).symm.trans settled) (by simp)
  | broken =>
      rw [was] at settled
      exact absurd ((broken_stays same).symm.trans settled) (by simp)

/-! ## Gives of one's own -/

/-- The procedure the thread is waiting for. -/
def Pc.awaited : Pc → Option Procedure
  | .phyTake => some .phy
  | .dataLenTake => some .dataLength
  | .paramTake => some .param
  | _ => none

def Event.entry : Event → Entry
  | .phyUpdated => .updated .phy
  | .paramUpdated _ => .updated .param
  | .dataLengthUpdated _ => .updated .dataLength
  | .dataRead => .dataRead

/-- The callback gives the semaphore. -/
def gives (m : Machine) : Event → Bool
  | .dataLengthUpdated _ => m.dataLengthReq
  | _ => true

/-- A request is made while there is nothing to take, and a give that ends a wait is
that of the update awaited. -/
def ownGives (m : Machine) : Act → Bool
  | .call _ => true
  | .thread answer =>
      match m.pc with
      | .phyUpdate => answer != 0 || m.throughputSem.count == 0
      | .dataLenUpdate => answer != 0 || m.throughputSem.count == 0
      | .paramUpdate => answer != 0 || m.throughputSem.count == 0
      | _ => true
  | .callback event =>
      match m.pc.awaited with
      | none => true
      | some p => event.entry == .updated p || m.throughputSem.count == 1 || !gives m event

theorem callback_eq (m : Machine) (event : Event) :
    (callback m event).pc = m.pc ∧ (callback m event).log = m.log ++ [event.entry] ∧
      (callback m event).throughputSem =
        if gives m event then m.throughputSem.give else m.throughputSem := by
  cases event with
  | dataLengthUpdated txMaxLen =>
      by_cases requested : m.dataLengthReq = true <;>
        simp [callback, leDataLengthUpdated, Machine.note, Machine.give, gives, Event.entry,
          requested]
  | phyUpdated => exact ⟨rfl, rfl, rfl⟩
  | paramUpdated interval => exact ⟨rfl, rfl, rfl⟩
  | dataRead => exact ⟨rfl, rfl, rfl⟩

/-! ## Every run -/

/-- During the wait for `p`: the update has come, or there is nothing to take. -/
def Waits (m : Machine) (p : Procedure) : Prop :=
  book m.log = .settled ∨ (book m.log = .waiting p ∧ m.throughputSem.count = 0)

/-- What the thread knows at a statement. -/
def BookOk (m : Machine) : Prop :=
  match m.pc with
  | .getInfo => book m.log = .settled
  | .roleTest => book m.log = .settled
  | .phyUpdate => book m.log = .settled
  | .phyTake => Waits m .phy
  | .dataLenTest => book m.log = .settled
  | .setDataLengthReq => book m.log = .settled
  | .dataLenUpdate => book m.log = .settled
  | .dataLenTake => Waits m .dataLength
  | .intervalTest => book m.log = .settled
  | .paramUpdate => book m.log = .settled
  | .paramTake => Waits m .param
  | _ => True

structure Inv (m : Machine) : Prop where
  paired : Always Paired m.log
  knows : BookOk m

@[simp] theorem book_snoc (log : List Entry) (e : Entry) :
    book (log ++ [e]) = (book log).next e :=
  present_snoc

theorem paired_of_other {log : List Entry} {e : Entry} (other : e ≠ .returned 0) : Paired log e :=
  fun returns => absurd returns other

theorem ret_inv {m : Machine} (paired : Always Paired m.log) {err : Int}
    (success : err = 0 → book m.log = .settled) : Inv (m.ret err) := by
  refine ⟨always_snoc.mpr ⟨paired, ?_⟩, trivial⟩
  by_cases zero : err = 0
  · exact paired_of_settled (success zero) _
  · exact paired_of_other (by simpa using zero)

theorem request_inv {m : Machine} (paired : Always Paired m.log) {p : Procedure} {pc : Pc}
    {answer : Int} (settled : book m.log = .settled) (awaits : pc.awaited = some p)
    (met : (answer != 0 || m.throughputSem.count == 0) = true) : Inv (m.request p pc answer) := by
  unfold Machine.request
  split
  · rename_i failed
    exact ret_inv paired fun zero => absurd zero failed
  · rename_i issued
    have nothing : m.throughputSem.count = 0 := by simpa [not_not.mp issued] using met
    refine ⟨always_snoc.mpr ⟨paired, paired_of_other (by simp)⟩, ?_⟩
    have waits : Waits { m.note (.requested p) with pc := pc } p := by
      refine Or.inr ⟨?_, nothing⟩
      show book (m.log ++ [Entry.requested p]) = .waiting p
      rw [book_snoc, settled]
      rfl
    cases pc <;> cases awaits <;> exact waits

/-- A wait that succeeds has seen the update. -/
theorem Waits.taken {m : Machine} {p : Procedure} (waits : Waits m p) {sem : Semaphore 1}
    (taken : m.throughputSem.take = some sem) : book m.log = .settled := by
  rcases waits with settled | ⟨_, nothing⟩
  · exact settled
  · have some_ := Semaphore.take_eq_some.mp taken
    omega

theorem semTake_inv {m m' : Machine} (paired : Always Paired m.log) {p : Procedure}
    (waits : Waits m p) {answer : Int} {after : Machine → Machine}
    (taken : m.semTake answer after = some m')
    (goes : ∀ sem, book m.log = .settled → Inv (after { m with throughputSem := sem })) :
    Inv m' := by
  unfold Machine.semTake at taken
  split at taken
  · rw [Option.map_eq_some_iff] at taken
    obtain ⟨sem, took, rfl⟩ := taken
    exact goes sem (waits.taken took)
  · rename_i failed
    split at taken
    · cases taken
      exact ret_inv paired fun zero => absurd zero failed
    · cases taken

theorem thread_inv {m m' : Machine} {answer : Int} (inv : Inv m)
    (met : ownGives m (.thread answer) = true) (taken : thread m answer = some m') : Inv m' := by
  have paired := inv.paired
  have known := inv.knows
  unfold thread at taken
  unfold BookOk at known
  unfold ownGives at met
  cases at_ : m.pc <;> simp only [at_] at taken known met
  case idle => cases taken
  case getInfo =>
      split at taken
      · rename_i failed
        cases taken
        exact ret_inv paired fun zero => absurd zero failed
      · cases taken
        exact ⟨paired, known⟩
  case roleTest => cases taken; exact ⟨paired, known⟩
  case phyUpdate => cases taken; exact request_inv paired known rfl met
  case phyTake => exact semTake_inv paired known taken fun _ settled => ⟨paired, settled⟩
  case dataLenTest =>
      cases taken
      by_cases same : m.conn.txMaxLen ≠ m.params.txMaxLen
      · rw [if_pos same]
        exact ⟨paired, known⟩
      · rw [if_neg same]
        exact ⟨paired, known⟩
  case setDataLengthReq => cases taken; exact ⟨paired, known⟩
  case dataLenUpdate => cases taken; exact request_inv paired known rfl met
  case dataLenTake => exact semTake_inv paired known taken fun _ settled => ⟨paired, settled⟩
  case intervalTest =>
      split at taken <;> cases taken
      · exact ⟨paired, known⟩
      · exact ret_inv paired fun _ => known
  case paramUpdate => cases taken; exact request_inv paired known rfl met
  case paramTake =>
      exact semTake_inv paired known taken fun sem settled =>
        ret_inv (m := { m with throughputSem := sem }) paired fun _ => settled
  case returned err =>
      cases taken
      refine ⟨paired, ?_⟩
      by_cases failed : err ≠ 0
      · rw [if_pos failed]; trivial
      · rw [if_neg failed]; trivial
  case throughputWrite =>
      cases taken
      refine ⟨paired, ?_⟩
      by_cases failed : answer ≠ 0
      · rw [if_pos failed]; trivial
      · rw [if_neg failed]; trivial
  case throughputRead =>
      cases taken
      refine ⟨paired, ?_⟩
      by_cases failed : answer ≠ 0
      · rw [if_pos failed]; trivial
      · rw [if_neg failed]; trivial
  case readTake =>
      split at taken
      · rw [Option.map_eq_some_iff] at taken
        obtain ⟨sem, _, rfl⟩ := taken
        exact ⟨paired, trivial⟩
      · split at taken
        · cases taken
          exact ⟨paired, trivial⟩
        · cases taken

/-! ### The callbacks -/

theorem next_settled (event : Event) : Book.settled.next event.entry = .settled := by
  cases event <;> rfl

theorem next_own (p : Procedure) : (Book.waiting p).next (.updated p) = .settled :=
  if_pos rfl

theorem next_foreign {p : Procedure} {event : Event} (foreign : event.entry ≠ .updated p) :
    (Book.waiting p).next event.entry = .waiting p := by
  cases event with
  | dataRead => rfl
  | phyUpdated => exact if_neg fun same => foreign (by rw [same]; rfl)
  | paramUpdated => exact if_neg fun same => foreign (by rw [same]; rfl)
  | dataLengthUpdated => exact if_neg fun same => foreign (by rw [same]; rfl)

/-- During a wait the callbacks keep what it knows. -/
theorem Waits.callback {m : Machine} {p : Procedure} (waits : Waits m p) {event : Event}
    (met : (event.entry == .updated p || m.throughputSem.count == 1 || !gives m event) = true) :
    Waits (callback m event) p := by
  obtain ⟨_, log, sem⟩ := callback_eq m event
  unfold Waits
  rw [log, sem, book_snoc]
  rcases waits with settled | ⟨waiting, nothing⟩
  · exact Or.inl (by rw [settled, next_settled])
  · by_cases own : event.entry = .updated p
    · exact Or.inl (by rw [waiting, own, next_own])
    · refine Or.inr ⟨by rw [waiting, next_foreign own], ?_⟩
      have silent : gives m event = false := by simpa [own, nothing] using met
      rw [silent]
      exact nothing

theorem settled_callback {m : Machine} (settled : book m.log = .settled) (event : Event) :
    book (callback m event).log = .settled := by
  rw [(callback_eq m event).2.1, book_snoc, settled, next_settled]

theorem callback_inv {m : Machine} {event : Event} (inv : Inv m)
    (met : ownGives m (.callback event) = true) : Inv (callback m event) := by
  have known := inv.knows
  obtain ⟨pc, log, _⟩ := callback_eq m event
  refine ⟨?_, ?_⟩
  · rw [log]
    refine always_snoc.mpr ⟨inv.paired, paired_of_other ?_⟩
    cases event <;> simp [Event.entry]
  · unfold BookOk at known ⊢
    unfold ownGives at met
    rw [pc]
    cases at_ : m.pc <;> simp only [at_, Pc.awaited] at known met ⊢
    case phyTake => exact known.callback met
    case dataLenTake => exact known.callback met
    case paramTake => exact known.callback met
    all_goals exact settled_callback known event

theorem step_inv {m m' : Machine} {a : Act} (inv : Inv m) (met : ownGives m a = true)
    (taken : step m a = some m') : Inv m' := by
  cases a with
  | call params =>
      simp only [step, call] at taken
      split at taken
      · cases taken
        refine ⟨always_snoc.mpr ⟨inv.paired, paired_of_other (by simp)⟩, ?_⟩
        show book (m.log ++ [Entry.called]) = .settled
        rw [book_snoc]
        cases book m.log <;> rfl
      · cases taken
  | thread answer => exact thread_inv inv met taken
  | callback event =>
      cases taken
      exact callback_inv inv met

theorem init_inv {m : Machine} (init : Init m) : Inv m := by
  constructor
  · rw [init.log]
    exact always_nil
  · unfold BookOk
    rw [init.pc]
    trivial

theorem reachable_inv {m : Machine} (run : Reachable step Init ownGives m) : Inv m := by
  apply run.invariant
  · intro s init
    exact init_inv init
  · intro s a t inv met taken
    exact step_inv inv met taken

/-- **The configuration.**  In every run whose requests are made while there is
nothing to take, and whose waits are ended by no other callback, a call returns 0
only after each of its requests was answered before the next. -/
theorem config_answered {m : Machine} (run : Reachable step Init ownGives m) :
    Always Paired m.log :=
  (reachable_inv run).paired

/-- A connection after the boot. -/
def booted (interval txMaxLen : Nat) : Machine where
  throughputSem := Semaphore.empty
  dataLengthReq := false
  conn := ⟨.master, interval, txMaxLen⟩
  pc := .idle
  info := ⟨.master, 0⟩
  params := ⟨0, 0⟩
  log := []

theorem booted_init (interval txMaxLen : Nat) : Init (booted interval txMaxLen) :=
  ⟨rfl, rfl, rfl, rfl⟩

/-- All three procedures, each answered. -/
def configRun : List Act :=
  [.call ⟨320, 251⟩, .thread 0, .thread 0, .thread 0, .callback .phyUpdated, .thread 0, .thread 0,
    .thread 0, .thread 0, .callback (.dataLengthUpdated 251), .thread 0, .thread 0, .thread 0,
    .callback (.paramUpdated 320), .thread 0]

theorem config_answered_configRun :
    ∃ m : Machine, Always Paired m.log ∧ m.log = [.called, .requested .phy, .updated .phy,
      .requested .dataLength, .updated .dataLength, .requested .param, .updated .param,
      .returned 0] := by
  have found : (exec step ownGives (booted 24 27) configRun).any (fun m => m.log == [.called,
      .requested .phy, .updated .phy, .requested .dataLength, .updated .dataLength,
      .requested .param, .updated .param, .returned 0]) = true := by decide +kernel
  obtain ⟨m, run, log⟩ := exists_reachable_of_exec (booted_init 24 27) found
  exact ⟨m, config_answered run, eq_of_beq log⟩

/-- The peer updates the parameters before the call. -/
def leftOverRun : List Act :=
  [.callback (.paramUpdated 320), .call ⟨320, 27⟩, .thread 0, .thread 0, .thread 0, .thread 0,
    .thread 0, .thread 0]

/-- **A give that is left over ends the wait.**  The call returns 0 without a PHY
update. -/
theorem left_over_give_ends_wait :
    ¬ ∀ m, Reachable step Init unguarded m → Always Paired m.log := by
  intro answered
  have found : (exec step unguarded (booted 24 27) leftOverRun).any (fun m => m.log ==
      [.updated .param, .called, .requested .phy, .returned 0]) = true := by decide +kernel
  obtain ⟨m, run, log⟩ := exists_reachable_of_exec (booted_init 24 27) found
  have paired := answered m run
  rw [eq_of_beq log] at paired
  have answer := paired [.updated .param, .called, .requested .phy] (.returned 0) [] rfl rfl
    [.updated .param, .called] .phy [] rfl (by simp)
  exact absurd answer (by simp [Answered])

end NcsExp.Throughput
