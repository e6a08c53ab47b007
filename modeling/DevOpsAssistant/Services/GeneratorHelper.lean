import DevOpsAssistant.Services.ArtifactService
import DevOpsAssistant.Services.LogAnalyzer
import DevOpsAssistant.Services.PolicyEngine
import DevOpsAssistant.Text.Strings

/-!
# What generators do with what they have generated

* `PolicyService.evaluatePacks`: the findings of the active packs of an organization.
* `applyGeneratorPoliciesAndSave`: the policies an organization asks for, and the artifact the user
  asks for; critical findings block it.
* `persist`: the common end of the generators, which also keeps what is not saved.
* `generateParsed`, `orElseBase`: the beginning of those that ask a language model.
-/

namespace DevOps

open Txn

variable (env : Env)

namespace PolicyService

/-- The findings of packs that have been loaded with their rules. -/
def packFindings (packs : List (PolicyPack × List PolicyRule)) (configType content : String) :
    List PolicyFinding :=
  packs.flatMap fun (pack, rules) => evaluatePolicyRules env rules configType content pack.id

def evaluatePacks (organizationId : UUID) (policyPackIds : List UUID) (configType content : String) :
    Db (List PolicyFinding) := do
  let packs ← PolicyRepository.getActivePacksByIds organizationId policyPackIds
  if packs.length ≠ policyPackIds.dedup.length then
    throw (ValidationAppError "One or more policy packs are invalid or inactive")
  else return packFindings env packs configType content

end PolicyService

/-- `GeneratorSaveOptions`. -/
structure GeneratorSaveOptions where
  saveArtifact : Bool
  artifactName : Option String
  artifactDescription : Option String
  organizationId : Option UUID
  policyPackIds : List UUID
  validatePolicies : Bool

/-- `_config_type_for_artifact`. -/
def configTypeForArtifact : ArtifactType → String
  | .dockerfile => "dockerfile"
  | .kubernetes => "kubernetes"
  | .githubActions => "github-actions"
  | .gitlabCi => "gitlab-ci"
  | .jenkins => "jenkins"
  | .terraform => "terraform"
  | .shellCommand => "shell-command"
  | .command => "general"
  | .pipeline => "github-actions"
  | .incidentReport | .runbook | .review | .other => "general"

/-- The findings of the policies a request asks for. -/
def requestedFindings (user : User) (payload : GeneratorSaveOptions) (artifactType : ArtifactType)
    (content : String) : Db (List PolicyFinding) :=
  match payload.organizationId with
  | none => pure []
  | some organizationId =>
    if payload.validatePolicies && !payload.policyPackIds.isEmpty then do
      let _ ← OrganizationAuthService.requirePermission organizationId user.id .policyRead
      PolicyService.evaluatePacks env organizationId payload.policyPackIds
        (configTypeForArtifact artifactType) content
    else pure []

/-- `ArtifactCreateRequest(...)`, which validates its fields. -/
def artifactCreateRequest (payload : GeneratorSaveOptions) (artifactType : ArtifactType)
    (content defaultName : String) : Db ArtifactCreateRequest :=
  let name := (payload.artifactName.filter (· ≠ "")).getD defaultName
  if name = "" ∨ 255 < name.length ∨ content = "" then throw (.other "ValidationError")
  else pure ⟨name, payload.artifactDescription, artifactType, content, payload.organizationId⟩

/-- The findings block the artifact. -/
def blocksSave (findings : List PolicyFinding) : Bool :=
  env.settings.blockArtifactSaveOnCriticalPolicyFailure && hasCriticalFindings findings

def applyGeneratorPoliciesAndSave (user : User) (payload : GeneratorSaveOptions)
    (artifactType : ArtifactType) (content defaultName : String) :
    Db (List PolicyFinding × Option UUID) := do
  let findings ← requestedFindings env user payload artifactType content
  if payload.saveArtifact then
    if blocksSave env findings then
      throw (ValidationAppError "Artifact save blocked due to critical policy failures")
    else
      let request ← artifactCreateRequest payload artifactType content defaultName
      let artifact ← ArtifactService.create env user request
      return (findings, some artifact.id)
  else return (findings, none)

/-- The common end of the generators. -/
def persist (user : User) (payload : GeneratorSaveOptions) (artifactType : ArtifactType)
    (content defaultName : String) : Db (List PolicyFinding × Option UUID) := do
  let (findings, savedArtifactId) ←
    applyGeneratorPoliciesAndSave env user payload artifactType content defaultName
  if payload.saveArtifact then return (findings, savedArtifactId)
  else
    let _ ← ArtifactRepository.createArtifact user.id none artifactType defaultName none content
    return (findings, savedArtifactId)

/-- `content.strip() + "\n"`. -/
def stripped (content : String) : String := env.strip content ++ "\n"

/-! ## What a language model has written -/

open Regex PolicyEngine in
/-- The text of a model without white space around it and without the fence of a code block. -/
def unfenced (raw : String) : String :=
  let text := env.strip raw
  if "```".toList.isPrefixOf text.toList then
    let opening :=
      concat [textStart, lit "```".toList, opt (lit "json".toList), star (space env)]
    let closing := concat [star (space env), lit "```".toList, textEnd]
    String.ofList (closing.remove (opening.remove text.toList))
  else text

/-- The text of the model, unfenced, read by `loads`; `none` raises. -/
def generateParsed {α : Type} (user : User) (operation : LLMOperation) (payload : GeneratorSaveOptions)
    (prompt systemPrompt provider : String) (loads : String → Option α) : Db α := do
  let (raw, _) ← LLMGateway.generate env user operation payload.organizationId prompt
    (some systemPrompt) (some provider) none
  match loads (unfenced env raw) with
  | some a => return a
  | none => throw (.other "ValueError")

/-- `except Exception`: the fallback stands for any failure, unless it was one of a flush; then the
next statement raises. -/
def orElseBase {α : Type} (p : Db α) (base : α) : Db α :=
  tryCatch p fun e => if e.poisons then throw pendingRollback else pure base

end DevOps
