import DevOpsAssistant.Services.DashboardService
import DevOpsAssistant.Specs.Generators
import Mathlib.Data.List.Sort

/-!
# What the parts of the dashboard do

* `ends_authorize`: the checks leave the session as it was.
* `ends_newestItems`: a query gives the newest rows that the session sees.
* `StandsStill`: the time does not pass during a request.
* `stableLibrary`, `stillWorld`, `owner`: an engine, a clock and a user.
-/

namespace DevOps

open Txn

namespace DashboardService

variable {s : Session Row World} {cols : DashboardColumns} {lib : DashboardLibrary}

theorem ends_authorize (user : User) (organizationId : Option UUID) (audit : Bool) :
    (authorize user organizationId audit).Ends respond s (unchanged s fun _ => True) := by
  unfold authorize
  cases organizationId with
  | none => exact ends_unchanged_pure trivial
  | some o =>
    refine ends_unchanged_bind (ends_requireMembership o user.id) fun _ _ => ?_
    refine ends_unchanged_bind (ends_requirePermission o user.id _) fun _ _ => ?_
    exact ends_unchanged_pure trivial

/-- What is returned after the checks. -/
theorem ends_authorize_bind {α : Type} {user : User} {organizationId : Option UUID} {audit : Bool}
    {g : Db α} {Φ : α → Session Row World → Prop} (hg : g.Ends respond s (Prog.onOk Φ)) :
    (authorize user organizationId audit >>= fun _ => g).Ends respond s (Prog.onOk Φ) := by
  refine Prog.Ends.bind (ends_authorize user organizationId audit) (fun _ s' h => ?_)
    fun e _ _ a ha => nomatch ha
  rw [h.1]
  exact hg

/-- An engine that sorts by insertion. -/
def stableLibrary : DashboardLibrary where
  newestFirst time rows := rows.insertionSort fun a b => time b ≤ time a
  newestFirst_perm _ _ := List.perm_insertionSort _ _
  newestFirst_pairwise time rows := by
    have : Std.Total fun a b => time b ≤ time a := ⟨fun a b => Nat.le_total (time b) (time a)⟩
    have : IsTrans _ fun a b => time b ≤ time a := ⟨fun a b c hab hbc => Nat.le_trans hbc hab⟩
    exact List.pairwise_insertionSort _ rows
  uuidText _ := ""
  str _ := ""

/-- A clock that stands still. -/
def stillWorld : World := { World.trial 100 with ticks := fun _ => 0 }

/-- The user `1`. -/
def owner : User := ⟨1, "u@example.com", "user", "", .user, true, none, none, none, none, none⟩

end DashboardService

end DevOps
