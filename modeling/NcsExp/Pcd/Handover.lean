/-
# NcsExp.Pcd.Handover -- the hand-over in every reachable state

`reachable_inv`: every reachable state of an update from external flash is in one of
the turns, whatever the shared RAM held at first.
-/
import NcsExp.Pcd.AppSteps
import NcsExp.Pcd.NetSteps

namespace NcsExp.Pcd

open NcsExp.Theory

set_option autoImplicit false

/-- **Every step.** -/
theorem step_inv {u : Update} (image : u.External) {m m' : Machine} {a : Act} (inv : Inv u m)
    (taken : step u m a = some m') : Inv u m' := by
  cases a with
  | app =>
      exact ⟨appStep_turn image inv taken, appStep_knows image inv taken, appStep_magic inv taken⟩
  | net answer =>
      exact ⟨netStep_turn inv taken, netStep_knows image inv taken, netStep_magic inv taken⟩

/-- **Every reachable state.** -/
theorem reachable_inv {u : Update} (image : u.External) {ok : Machine → Act → Bool} {m : Machine}
    (run : Reachable (step u) Init ok m) : Inv u m := by
  apply run.invariant
  · intro s init
    exact init_inv u init
  · intro s a t inv _ taken
    exact step_inv image inv taken

end NcsExp.Pcd
