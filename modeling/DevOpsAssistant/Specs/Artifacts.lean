import DevOpsAssistant.Api.Artifacts
import DevOpsAssistant.Specs.Organizations
import DevOpsAssistant.Specs.Usage

/-!
# What the artifact services and the generators write besides artifacts

One lemma for each function that reads artifacts, policies or organizations, or asks a language model:
the statements it sends follow any rules that allow usage events.

* `only_draft`: what a generator does before it evaluates policies.
* `only_requestedFindings`: the findings of the policies a request asks for.
* `only_requireAccess`, `only_toDetail`: the reads of the artifact services.
-/

namespace DevOps

open Txn

variable (env : Env)

/-! ## Generators -/

theorem only_generateParsed {W : Rules} (hW : ∀ e : UsageEvent, W.insert (toRow e)) {α : Type}
    (user : User) (operation : LLMOperation) (payload : GeneratorSaveOptions)
    (prompt systemPrompt provider : String) (loads : String → Option α) :
    (generateParsed env user operation payload prompt systemPrompt provider loads).Only (Writes W)
      fun _ => True := by
  refine only_bind (only_gateway env hW _ _ _ _ _ _ _) fun (raw, _) => ?_
  simp only
  cases loads (unfenced env raw) <;> trivial

theorem only_orElseBase {W : Rules} {α : Type} {p : Db α} (hp : p.Only (Writes W) fun _ => True)
    (base : α) : (orElseBase p base).Only (Writes W) fun _ => True := by
  refine only_tryCatch hp fun e => ?_
  split <;> trivial

theorem only_dockerfileDraft {W : Rules} (hW : ∀ e : UsageEvent, W.insert (toRow e)) (user : User)
    (payload : DockerfileRequest) :
    (DockerGeneratorService.draft env user payload).Only (Writes W) fun _ => True :=
  only_orElseBase (only_generateParsed env hW _ _ _ _ _ _ _) _

theorem only_kubernetesDraft {W : Rules} (payload : KubernetesRequest) :
    (KubernetesGeneratorService.draft env payload).Only (Writes W) fun _ => True := by
  refine only_bind (P := fun _ => True) ?_ fun _ => trivial
  unfold validateYamlDocuments
  split
  · trivial
  · split <;> trivial

theorem only_commandDraft {W : Rules} (hW : ∀ e : UsageEvent, W.insert (toRow e)) (user : User)
    (payload : ShellCommandRequest) :
    (ShellCommandService.draft env user payload).Only (Writes W) fun _ => True :=
  only_orElseBase (only_bind (only_generateParsed env hW _ _ _ _ _ _ _) fun (_, _) => trivial) _

theorem only_draft {W : Rules} (hW : ∀ e : UsageEvent, W.insert (toRow e)) (user : User)
    (r : GeneratorRequest) : (r.draft env user).Only (Writes W) fun _ => True := by
  cases r with
  | dockerfile access payload =>
    exact only_bind (only_dockerfileDraft env hW user payload) fun _ => trivial
  | kubernetes access payload => exact only_kubernetesDraft env payload
  | pipeline access payload => trivial
  | command access payload =>
    exact only_bind (only_commandDraft env hW user payload) fun _ => trivial

theorem only_getActivePacksByIds {W : Rules} (o : UUID) (ids : List UUID) :
    (PolicyRepository.getActivePacksByIds o ids).Only (Writes W) fun _ => True := by
  unfold PolicyRepository.getActivePacksByIds
  split
  · trivial
  · refine (only_selectOf _).bind fun packs _ => (only_selectOf _).bind fun rules _ => ?_
    split <;> trivial

theorem only_requestedFindings {W : Rules} (user : User) (payload : GeneratorSaveOptions)
    (artifactType : ArtifactType) (content : String) :
    (requestedFindings env user payload artifactType content).Only (Writes W) fun _ => True := by
  unfold requestedFindings
  split
  · trivial
  · split
    · refine only_bind (only_requirePermission _ _ _) fun _ => ?_
      refine only_bind (only_getActivePacksByIds _ _) fun packs => ?_
      split <;> trivial
    · trivial

theorem only_artifactCreateRequest {W : Rules} (payload : GeneratorSaveOptions)
    (artifactType : ArtifactType) (content defaultName : String) :
    (artifactCreateRequest payload artifactType content defaultName).Only (Writes W)
      fun _ => True := by
  simp only [artifactCreateRequest]
  split <;> trivial

/-! ## Artifacts -/

section Artifacts

open ArtifactService

variable {W : Rules}

theorem only_validateContentSize (content : String) :
    (validateContentSize env content).Only (Writes W) fun _ => True := by
  unfold validateContentSize
  split <;> trivial

theorem only_validateOrgCreate (user : User) (o : Option UUID) :
    (validateOrgCreate user o).Only (Writes W) fun _ => True := by
  unfold validateOrgCreate
  split
  · trivial
  · exact only_bind (only_requirePermission _ _ _) fun _ => trivial

theorem only_requireAccess (permission : Permission) (user : User) (artifact : GeneratedArtifact) :
    (requireAccess permission user artifact).Only (Writes W) fun _ => True := by
  unfold requireAccess
  split
  · split <;> trivial
  · exact only_bind (only_requirePermission _ _ _) fun _ => trivial

theorem only_currentVersion (artifact : GeneratedArtifact) (held : List ArtifactVersion) :
    (currentVersion artifact held).Only (Writes W) fun _ => True := by
  unfold currentVersion
  split
  · trivial
  · split
    · trivial
    · exact (only_selectOne _).mono (fun _ h => h) fun _ _ => trivial

theorem only_toDetail (artifact : GeneratedArtifact) (held : List ArtifactVersion) :
    (toDetail artifact held).Only (Writes W) fun _ => True :=
  only_bind (only_currentVersion artifact held) fun _ => trivial

theorem only_getArtifact (user : User) (artifactId : UUID) :
    (getArtifact user artifactId).Only (Writes W) fun _ => True := by
  refine (only_selectOne _).bind fun found _ => ?_
  split
  · trivial
  · exact only_bind (only_requireAccess _ _ _) fun _ => only_toDetail _ _

theorem only_listVersions (user : User) (artifactId : UUID) (limit offset : ℕ) :
    (listVersions user artifactId limit offset).Only (Writes W) fun _ => True := by
  refine (only_selectOne _).bind fun found _ => ?_
  split
  · trivial
  · refine only_bind (only_requireAccess _ _ _) fun _ => only_bind (P := fun _ => True) ?_ fun _ => trivial
    exact (only_selectOf _).bind fun _ _ => trivial

theorem only_getVersion (user : User) (artifactId : UUID) (versionNumber : ℕ) :
    (getVersion user artifactId versionNumber).Only (Writes W) fun _ => True := by
  refine (only_selectOne _).bind fun found _ => ?_
  split
  · trivial
  · refine only_bind (only_requireAccess _ _ _) fun _ => (only_selectOne _).bind fun version _ => ?_
    split <;> trivial

end Artifacts

end DevOps
