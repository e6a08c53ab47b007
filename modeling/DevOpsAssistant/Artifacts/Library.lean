import DevOpsAssistant.Api.Library
import DevOpsAssistant.Artifacts.TagScopes
import DevOpsAssistant.Artifacts.Versions

/-!
# Runs with tags and favorites

Tags and favorites have tables of their own: the requests that write them leave artifacts and versions.

* `only_favorite`, `only_unfavorite`: what these requests write.
* `ensures_library`: every request commits only an effect on artifacts.
* **`chained_of_library`**: the invariant of artifacts in every state of a run.
-/

namespace DevOps

open Txn Discipline

section Statements

variable {env : Env} {W : Rules}

theorem only_favorite (hi : ∀ f : ArtifactFavorite, W.insert (toRow f)) (user : User) (id : UUID) :
    (ArtifactService.favorite user id).Only (Writes W) fun _ => True := by
  refine (only_selectOne _).bind fun found _ => ?_
  cases found with
  | none => exact only_throw _
  | some a =>
    refine only_bind (only_requireAccess _ _ _) fun _ => only_bind (P := fun _ => True) ?_ fun _ =>
      only_pure _
    unfold ArtifactTagRepository.favoriteArtifact
    rw [← bind_assoc]
    refine (only_selectOne _).bind fun found _ => ?_
    cases found with
    | some f => exact only_pure _
    | none =>
      exact only_bind only_uuid4 fun _ => only_bind only_now fun _ =>
        only_bind (only_insertOf _ _ (hi _)) fun _ => only_pure _

theorem only_unfavorite (hd : ∀ f : ArtifactFavorite, W.delete (toRow f)) (user : User) (id : UUID) :
    (ArtifactService.unfavorite user id).Only (Writes W) fun _ => True := by
  refine (only_selectOne _).bind fun found _ => ?_
  cases found with
  | none => exact only_throw _
  | some a =>
    refine only_bind (only_requireAccess _ _ _) fun _ => only_bind (P := fun _ => True) ?_ fun _ =>
      only_pure _
    exact only_bind (only_deleteOf _ fun f _ => hd f) fun _ => only_pure _

end Statements

/-! ## Runs -/

section Runs

variable {env : Env} {s : State} {c : LibraryConfig}

/-- The session has written an effect of some request on artifacts. -/
def KeepsArtifacts (env : Env) (_ : LibraryRequest) (h : Told) (l : OpenTx) (c : Database) : Prop :=
  ∃ r, Keeping env r h l c

theorem allowsTags_besideArtifacts : AllowsTags besideArtifacts := by
  constructor <;> intros <;> exact Bool.false_ne_true

theorem ensures_any {α : Type} {p : Db α} {q : LibraryRequest} {r : WorkspaceRequest} {h : Told}
    {l : OpenTx} {c : Database} (hp : (artifactDiscipline env).ensures (Keeping env r)
      (returns fun _ => Keeping env r) p h l c) :
    (artifactDiscipline env).ensures (KeepsArtifacts env q) (returns fun _ => KeepsArtifacts env q) p
      h l c := by
  refine ensures_imp (fun _ _ _ k => ⟨r, k⟩) (fun result h l c hr => ?_) hp
  exact fun a ha => ⟨r, hr a ha⟩

/-- A request that writes none of the tables of artifacts. -/
theorem ensures_beside_artifacts {α : Type} {p : Db α} {q : LibraryRequest} {c : Database}
    (hp : p.Only (Writes besideArtifacts) fun _ => True) :
    (artifactDiscipline env).ensures (KeepsArtifacts env q) (returns fun _ => KeepsArtifacts env q) p
      [] .start c := by
  have hunwritten : (artifactDiscipline env).ensures (Keeping env (.artifact (.get (.text "") 0)))
      (returns fun _ => Keeping env (.artifact (.get (.text "") 0))) p [] .start c :=
    ensures_unwritten ⟨rfl, List.not_mem_nil⟩ hp
  exact ensures_any hunwritten

/-- **Every request** commits only an effect on artifacts. -/
theorem ensures_library (env : Env) : (artifactDiscipline env).Ensures (KeepsArtifacts env)
    (fun _ _ _ => True) (LibraryRequest.serve env) := by
  intro q c _
  refine ensures_unitOfWork (returns fun _ => KeepsArtifacts env q)
    (fun a h l c ha => ⟨ha a rfl, fun _ _ => trivial⟩) (fun _ _ _ _ => trivial) ?_
  cases q with
  | workspace r =>
    exact ensures_map (ensures_any (ensures_workspaceRoute ⟨rfl, List.not_mem_nil⟩ r))
  | tag r => exact ensures_map (ensures_beside_artifacts (only_tagRoute allowsTags_besideArtifacts r))
  | favorite access id =>
    exact ensures_beside_artifacts (only_bind (only_getCurrentUser env access) fun user =>
      only_bind (only_favorite (fun _ => Bool.false_ne_true) user id) fun _ => only_pure _)
  | unfavorite access id =>
    exact ensures_beside_artifacts (only_bind (only_getCurrentUser env access) fun user =>
      only_bind (only_unfavorite (fun _ => Bool.false_ne_true) user id) fun _ => only_pure _)

/-- **In every state** that interleaved requests reach, the versions of artifacts are numbered from 1 on,
and an artifact that points to a version points to one of its own. -/
theorem chained_of_library (h₀ : NoArtifacts s.committed)
    (hc : Reach respond (LibraryRequest.serve env) s.open c) : Chained env c.committed := by
  obtain ⟨g, hx⟩ := RecordedReach.of_reach hc (fun _ => [])
  have hbetween : Between (artifactDiscipline env) s := between_of_noArtifacts h₀
  have hkept : Kept (artifactDiscipline env) (KeepsArtifacts env) (fun _ _ _ => True) ⟨c, g⟩ :=
    Kept.reach (ensures_library env) (fun _ _ _ _ e ⟨_, k⟩ => commitOk_of_keeping e k)
      (fun _ _ _ => trivial) (Kept.open hbetween.inv hbetween.named) hx
  exact hkept.inv

end Runs

end DevOps
