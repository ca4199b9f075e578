/-
# NcsExp.Pcd.Progress -- the hand-over never stops half way

What the steps of one core alone lead to.  The network core, once released, fetches
a full buffer (`fetch_step`); the application core fills an empty one and hands it
over (`work_step`).  Each lowers the rank of its program counter.
-/
import NcsExp.Theory.Progress
import NcsExp.Pcd.Handover

namespace NcsExp.Pcd

open NcsExp.Theory

set_option autoImplicit false

/-- The next step is the application core's. -/
def appAlone (a : Act) : Prop := a = .app

/-- The next step is the network core's, and the driver reports success. -/
def netAlone (a : Act) : Prop := a = .net 0

/-! ## The network core fetches a full buffer -/

/-- The statements up to the one that clears `image_chunk_available`. -/
def NetPc.fetching : NetPc → Bool
  | .status => true
  | .dataPtr => true
  | .copyMagic => true
  | .init => true
  | .copyData => true
  | .loopMoved => true
  | .loopLen _ => true
  | .loopAvailable => true
  | .chunkPtr => true
  | .chunkLen _ => true
  | .chunkRead _ _ _ => true
  | .clearAvailable => true
  | _ => false

/-- How many steps are left to it, in a buffer of `chunkLen` bytes. -/
def NetPc.rank (chunkLen : Nat) : NetPc → Nat
  | .status => chunkLen + 11
  | .dataPtr => chunkLen + 10
  | .copyMagic => chunkLen + 9
  | .init => chunkLen + 8
  | .copyData => chunkLen + 7
  | .loopMoved => chunkLen + 6
  | .loopLen _ => chunkLen + 5
  | .loopAvailable => chunkLen + 4
  | .chunkPtr => chunkLen + 3
  | .chunkLen _ => chunkLen + 2
  | .chunkRead _ n got => n - got.length + 1
  | _ => 0

theorem fetch_step {u : Update} (image : u.External) {m : Machine} (inv : Inv u m)
    (available : m.cmd.imageChunkAvailable = true) (more : m.cmd.bytesMoved < u.len)
    (fetching : m.net.fetching = true) :
    ∃ t, netStep u m 0 = some t ∧
      (t.cmd.imageChunkAvailable = false ∨
        (t.cmd = m.cmd ∧ t.net.fetching = true ∧
          t.net.rank t.cmd.chunkLen < m.net.rank m.cmd.chunkLen)) := by
  have on : m.net ≠ .off := by
    intro off
    rw [off] at fetching
    cases fetching
  have halted : m.net ≠ .halted := by
    intro halted
    rw [halted] at fetching
    cases fetching
  have loaded := inv.turn.loaded on
  have copying := inv.copying on halted
  have knows := inv.knows
  have external : ¬ m.cmd.data < EXTERNAL_FLASH := Nat.not_lt.mpr (loaded.external image)
  unfold netStep
  cases at_ : m.net <;> rw [at_] at fetching knows <;> dsimp only
  case status =>
      rw [if_pos copying]
      exact ⟨_, rfl, Or.inr ⟨rfl, rfl, Nat.lt_succ_self _⟩⟩
  case dataPtr =>
      rw [if_neg external]
      exact ⟨_, rfl, Or.inr ⟨rfl, rfl, Nat.lt_succ_self _⟩⟩
  case copyMagic =>
      rw [if_neg (not_not.mpr copying)]
      exact ⟨_, rfl, Or.inr ⟨rfl, rfl, Nat.lt_succ_self _⟩⟩
  case init => exact ⟨_, rfl, Or.inr ⟨rfl, rfl, Nat.lt_succ_self _⟩⟩
  case copyData =>
      rw [if_neg external]
      exact ⟨_, rfl, Or.inr ⟨rfl, rfl, Nat.lt_succ_self _⟩⟩
  case loopMoved => exact ⟨_, rfl, Or.inr ⟨rfl, rfl, Nat.lt_succ_self _⟩⟩
  case loopLen moved =>
      have seen : moved < m.cmd.len := by
        rw [show m.cmd.len = u.len from loaded.len]
        exact Nat.lt_of_le_of_lt knows more
      rw [if_pos seen]
      exact ⟨_, rfl, Or.inr ⟨rfl, rfl, Nat.lt_succ_self _⟩⟩
  case loopAvailable =>
      rw [if_pos available]
      exact ⟨_, rfl, Or.inr ⟨rfl, rfl, Nat.lt_succ_self _⟩⟩
  case chunkPtr => exact ⟨_, rfl, Or.inr ⟨rfl, rfl, Nat.lt_succ_self _⟩⟩
  case chunkLen => exact ⟨_, rfl, Or.inr ⟨rfl, rfl, Nat.lt_succ_self _⟩⟩
  case chunkRead src n got =>
      by_cases short : got.length < n
      · rw [if_pos short]
        refine ⟨_, rfl, Or.inr ⟨rfl, rfl, ?_⟩⟩
        simp only [NetPc.rank, List.length_append, List.length_singleton]
        omega
      · rw [if_neg short, if_pos rfl]
        exact ⟨_, rfl, Or.inr ⟨rfl, rfl, Nat.succ_pos _⟩⟩
  case clearAvailable => exact ⟨_, rfl, Or.inl rfl⟩
  all_goals cases fetching

/-- A full buffer is fetched. -/
theorem fetch {u : Update} (image : u.External) {m : Machine} (inv : Inv u m)
    (available : m.cmd.imageChunkAvailable = true) (more : m.cmd.bytesMoved < u.len)
    (fetching : m.net.fetching = true) :
    ∃ t, Leads (step u) netAlone m t ∧ t.cmd.imageChunkAvailable = false := by
  refine Leads.exists_of_rank (P := fun m => Inv u m ∧ m.cmd.imageChunkAvailable = true ∧
    m.cmd.bytesMoved < u.len ∧ m.net.fetching = true) (fun m => m.net.rank m.cmd.chunkLen) ?_
    ⟨inv, available, more, fetching⟩
  rintro s ⟨inv, available, more, fetching⟩
  obtain ⟨t, taken, cleared | ⟨same, again, lower⟩⟩ := fetch_step image inv available more fetching
  · exact ⟨.net 0, t, rfl, taken, Or.inl cleared⟩
  · have after : Inv u t := step_inv (a := .net 0) image inv taken
    refine ⟨.net 0, t, rfl, taken, Or.inr ⟨⟨after, ?_, ?_, again⟩, lower⟩⟩
    · rw [same]
      exact available
    · rw [same]
      exact more

/-! ## The application core fills an empty buffer -/

theorem AppPc.polls {pc : AppPc} (idle : ¬ pc.working = true) (running : pc.ended = false) :
    pc = .forceOn ∨ pc = .pollMagic ∨ pc = .pollWritten := by
  cases pc <;> simp [AppPc.working, AppPc.polling, AppPc.ended] at idle running ⊢

/-- How many steps are left to the release of the network core, with chunks of at
most `pageSize` bytes. -/
def AppPc.rank (pageSize : Nat) : AppPc → Nat
  | .cmdTest => pageSize + 21
  | .cmdMagic => pageSize + 20
  | .cmdData => pageSize + 19
  | .cmdLen => pageSize + 18
  | .cmdOffset => pageSize + 17
  | .cmdMoved => pageSize + 16
  | .pollMagic => pageSize + 17
  | .pollWritten => pageSize + 16
  | .update => pageSize + 15
  | .setImageChunk => pageSize + 14
  | .getLen => pageSize + 13
  | .getMoved _ => pageSize + 12
  | .setChunkLen _ => pageSize + 11
  | .copyDst => pageSize + 10
  | .copyData _ => pageSize + 9
  | .copyMoved _ _ => pageSize + 8
  | .copyLen _ _ => pageSize + 7
  | .copy _ _ n i => n - i + 6
  | .addMoved => 5
  | .addLen _ => 4
  | .setMoved _ => 3
  | .clearWritten => 2
  | .setAvailable => 1
  | _ => 0

/-- One step of filling the buffer. -/
structure WorkStep (u : Update) (m t : Machine) : Prop where
  net : t.net = m.net
  caller : t.caller = m.caller
  lower : t.app.rank u.pageSize < m.app.rank u.pageSize
  app : m.app ≠ .setAvailable → t.app.working = true
  written : m.app ≠ .clearWritten → t.cmd.imageChunkWritten = m.cmd.imageChunkWritten

theorem work_step {u : Update} (image : u.External) {m : Machine} (inv : Inv u m)
    (working : m.app.working = true) (before : m.app ≠ .setAvailable) :
    ∃ t, appStep u m = some t ∧ WorkStep u m t := by
  have done := inv.turn.working working
  unfold appStep
  cases at_ : m.app <;> rw [at_] at working done before <;> try cases working
  case cmdTest =>
      dsimp only
      rw [if_neg image.valid]
      refine ⟨_, rfl, rfl, rfl, ?_, fun _ => rfl, fun _ => rfl⟩
      rw [at_]
      exact Nat.lt_succ_self _
  case update =>
      rcases done with starting | ⟨loaded, _⟩
      · exact starting.elim
      · dsimp only
        rw [if_pos (show EXTERNAL_FLASH ≤ m.cmd.data from loaded.external image)]
        refine ⟨_, rfl, rfl, rfl, ?_, fun _ => rfl, fun _ => rfl⟩
        rw [at_]
        exact Nat.lt_succ_self _
  case copyLen dst src =>
      rcases done with starting | ⟨_, _, _, sized⟩
      · exact starting.elim
      · have page : m.cmd.chunkLen ≤ u.pageSize := sized.page
        refine ⟨_, rfl, rfl, rfl, ?_, fun _ => rfl, fun _ => rfl⟩
        rw [at_]
        show m.cmd.chunkLen - 0 + 6 < u.pageSize + 7
        omega
  case copy dst src n i =>
      dsimp only
      by_cases more : i < n
      · rw [if_pos more]
        refine ⟨_, rfl, rfl, rfl, ?_, fun _ => rfl, fun _ => rfl⟩
        rw [at_]
        show n - (i + 1) + 6 < n - i + 6
        omega
      · rw [if_neg more]
        refine ⟨_, rfl, rfl, rfl, ?_, fun _ => rfl, fun _ => rfl⟩
        rw [at_]
        show 5 < n - i + 6
        omega
  case setAvailable => exact absurd rfl before
  case clearWritten =>
      refine ⟨_, rfl, rfl, rfl, ?_, fun _ => rfl, fun other => absurd at_ other⟩
      rw [at_]
      exact Nat.lt_succ_self _
  all_goals
    refine ⟨_, rfl, rfl, rfl, ?_, fun _ => rfl, fun _ => rfl⟩
    rw [at_]
    exact Nat.lt_succ_self _

/-- A network core that is in reset is waiting for the first chunk, or has done. -/
def Held (m : Machine) : Prop :=
  m.net = .off → m.app.ended = false →
    m.caller = .pcdCmdWrite ∧ (m.app.working = true ∨ m.app = .forceOn)

theorem appStep_ended {u : Update} {m m' : Machine} (ended : m.app.ended = true)
    (taken : appStep u m = some m') : m'.app.ended = true := by
  unfold appStep at taken
  cases at_ : m.app <;> rw [at_] at taken ended <;> try cases ended
  case pollDone =>
      cases taken
      dsimp only
      split <;> rfl
  case forceOff => cases taken; rfl
  case returned => cases taken

theorem netStep_on {u : Update} {m m' : Machine} {answer : Int}
    (taken : netStep u m answer = some m') : m'.net ≠ .off := by
  unfold netStep at taken
  cases at_ : m.net <;> simp only [at_] at taken
  case internalLen => split at taken <;> cases taken <;> simp
  case memset => split at taken <;> cases taken <;> simp
  case chunkRead =>
      split at taken
      · cases taken; simp
      · split at taken <;> cases taken <;> simp
  all_goals
    cases taken
    try first
      | (dsimp only; split <;> simp)
      | simp

theorem step_held {u : Update} (image : u.External) {m m' : Machine} {a : Act} (inv : Inv u m)
    (held : Held m) (taken : step u m a = some m') : Held m' := by
  intro off running
  cases a with
  | net answer => exact absurd off (netStep_on taken)
  | app =>
      have before : m.app.ended = false := by
        by_cases ended : m.app.ended = true
        · exact absurd (running.symm.trans (appStep_ended ended taken)) (by simp)
        · exact Bool.eq_false_iff.mpr ended
      rcases (appStep_frame taken).net with ⟨_, net⟩ | ⟨at_, _⟩ | net
      · exact absurd (net.symm.trans off) (by simp)
      · rw [at_] at before
        cases before
      · obtain ⟨caller, working | forceOn⟩ := held (net.symm.trans off) before
        · by_cases last : m.app = .setAvailable
          · simp only [step, appStep, last, Machine.afterUpdate, caller, Option.some.injEq] at taken
            subst taken
            exact ⟨rfl, Or.inr rfl⟩
          · obtain ⟨t, work, does⟩ := work_step image inv working last
            cases work.symm.trans taken
            exact ⟨does.caller.trans caller, Or.inl (does.app last)⟩
        · simp only [step, appStep, forceOn, Option.some.injEq] at taken
          subst taken
          cases off

theorem reachable_held {u : Update} (image : u.External) {ok : Machine → Act → Bool} {m : Machine}
    (run : Reachable (step u) Init ok m) : Held m := by
  apply run.strengthen (Q := Inv u)
  · intro s before
    exact reachable_inv image before
  · intro s init _ _
    rw [init.app]
    exact ⟨init.caller, Or.inl rfl⟩
  · intro s a t inv held _ taken
    exact step_held image inv held taken

/-- While the network core is held in reset, the application core hands over the
first chunk and releases it. -/
theorem release {u : Update} (image : u.External) {m : Machine} (inv : Inv u m) (held : Held m)
    (magic : m.cmd.magic = PCD_CMD_MAGIC_COPY) (off : m.net = .off) :
    ∃ t, Leads (step u) appAlone m t ∧ t.net = .status ∧ t.cmd.imageChunkAvailable = true ∧
      t.cmd.imageChunkWritten = false := by
  obtain ⟨caller, app⟩ := held off (inv.turn.not_ended magic)
  refine Leads.exists_of_rank (P := fun s => Inv u s ∧ s.caller = .pcdCmdWrite ∧
    (s.app.working = true ∨ s.app = .forceOn)) (fun s => s.app.rank u.pageSize) ?_
    ⟨inv, caller, app⟩
  rintro s ⟨inv, caller, working | forceOn⟩
  · by_cases last : s.app = .setAvailable
    · have taken : step u s .app = some { s with
          cmd := { s.cmd with imageChunkAvailable := true }, app := .forceOn } := by
        simp only [step, appStep, last, Machine.afterUpdate, caller]
      refine ⟨.app, _, rfl, taken, Or.inr ⟨⟨step_inv image inv taken, caller, Or.inr rfl⟩, ?_⟩⟩
      rw [last]
      exact Nat.zero_lt_one
    · obtain ⟨t, taken, does⟩ := work_step image inv working last
      exact ⟨.app, t, rfl, taken, Or.inr ⟨⟨step_inv (a := .app) image inv taken,
        does.caller.trans caller, Or.inl (does.app last)⟩, does.lower⟩⟩
  · have taken : step u s .app = some { s with net := .status, app := .pollMagic } := by
      simp only [step, appStep, forceOn]
    obtain ⟨available, written⟩ := inv.turn.full_of_forceOn forceOn
    exact ⟨.app, _, rfl, taken, Or.inl ⟨rfl, available, written⟩⟩

/-- Once it has been released, the application core fills a buffer handed back, up to
clearing `image_chunk_written`. -/
theorem refill {u : Update} (image : u.External) {m : Machine} (inv : Inv u m)
    (magic : m.cmd.magic = PCD_CMD_MAGIC_COPY) (on : m.net ≠ .off)
    (written : m.cmd.imageChunkWritten = true) :
    ∃ t, Leads (step u) appAlone m t ∧ t.cmd.imageChunkWritten = false := by
  refine Leads.exists_of_rank (P := fun s => Inv u s ∧ s.cmd.magic = PCD_CMD_MAGIC_COPY ∧
    s.net ≠ .off ∧ s.cmd.imageChunkWritten = true) (fun s => s.app.rank u.pageSize) ?_
    ⟨inv, magic, on, written⟩
  rintro s ⟨inv, magic, on, written⟩
  by_cases working : s.app.working = true
  · by_cases cleared : s.app = .clearWritten
    · have taken : step u s .app = some { s with
          cmd := { s.cmd with imageChunkWritten := false }, app := .setAvailable } := by
        simp only [step, appStep, cleared]
      exact ⟨.app, _, rfl, taken, Or.inl rfl⟩
    · have before : s.app ≠ .setAvailable := by
        intro set
        exact absurd ((inv.turn.cleared_of_setAvailable set).symm.trans written) (by simp)
      obtain ⟨t, taken, does⟩ := work_step image inv working before
      refine ⟨.app, t, rfl, taken, Or.inr ⟨⟨step_inv (a := .app) image inv taken, ?_, ?_, ?_⟩,
        does.lower⟩⟩
      · rcases (appStep_frame taken).magic with ⟨_, set⟩ | ⟨same, _⟩
        · exact set
        · exact same.trans magic
      · rw [does.net]
        exact on
      · rw [does.written cleared]
        exact written
  · have running := inv.turn.not_ended magic
    rcases AppPc.polls working running with at_ | at_ | at_
    · exact absurd (inv.turn.off_of_forceOn at_) on
    · have taken : step u s .app = some { s with app := .pollWritten } := by
        simp only [step, appStep, at_, if_pos magic]
      refine ⟨.app, _, rfl, taken, Or.inr ⟨⟨step_inv image inv taken, magic, on, written⟩, ?_⟩⟩
      rw [at_]
      exact Nat.lt_succ_self _
    · have taken : step u s .app = some { s with app := .update, caller := .pcdNetworkCoreUpdate }
          := by
        simp only [step, appStep, at_, if_pos written]
      refine ⟨.app, _, rfl, taken, Or.inr ⟨⟨step_inv image inv taken, magic, on, written⟩, ?_⟩⟩
      rw [at_]
      exact Nat.lt_succ_self _

end NcsExp.Pcd
