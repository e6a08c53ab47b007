import DevOpsAssistant.Api.Accounts
import DevOpsAssistant.Services.DockerGenerator
import DevOpsAssistant.Services.KubernetesGenerator
import DevOpsAssistant.Services.PipelineGenerator
import DevOpsAssistant.Services.ShellCommandService
import DevOpsAssistant.Txn.Recorded

/-!
# The routes of generators and artifacts

* `GeneratorRequest`, `GeneratorResponseBody`: the requests clients send to these routes.
* `GeneratorRequest.draft`: what a request generates, before its policies are evaluated.
* `GeneratorRequest.serve`: the program of a request, inside the unit of work of `getDb`.
* `ArtifactRequest`, `ArtifactResponseBody`: the requests clients send to these routes.
* `WorkspaceRequest`: the requests that write artifacts: to these routes, or to those of the generators.
-/

namespace DevOps

open Txn

variable (env : Env)

/-- The requests to `/generate`; `access` is the bearer token. -/
inductive GeneratorRequest where
  | dockerfile (access : RawToken) (payload : DockerfileRequest)
  | kubernetes (access : RawToken) (payload : KubernetesRequest)
  | pipeline (access : RawToken) (payload : PipelineRequest)
  | command (access : RawToken) (payload : ShellCommandRequest)

/-- The bodies of successful responses. -/
inductive GeneratorResponseBody where
  | dockerfile (r : DockerfileResponse)
  | kubernetes (r : KubernetesResponse)
  | pipeline (r : PipelineResponse)
  | command (r : ShellCommandResponse)

namespace GeneratorRequest

/-- The bearer token of a request. -/
def access : GeneratorRequest → RawToken
  | dockerfile access _ | kubernetes access _ | pipeline access _ | command access _ => access

/-- The save options of a request. -/
def options : GeneratorRequest → GeneratorSaveOptions
  | dockerfile _ payload => payload.toGeneratorSaveOptions
  | kubernetes _ payload => payload.toGeneratorSaveOptions
  | pipeline _ payload => payload.toGeneratorSaveOptions
  | command _ payload => payload.toGeneratorSaveOptions

/-- The type of the artifact a request generates. -/
def artifactType : GeneratorRequest → ArtifactType
  | dockerfile _ _ => .dockerfile
  | kubernetes _ _ => .kubernetes
  | pipeline _ _ => .pipeline
  | command _ _ => .command

/-- What a request generates: the content that its policies are evaluated on. -/
def draft (user : User) : GeneratorRequest → Db String
  | dockerfile _ payload => do return (← DockerGeneratorService.draft env user payload).content
  | kubernetes _ payload => KubernetesGeneratorService.draft env payload
  | pipeline _ payload => do return (← PipelineGeneratorService.draft env payload).1
  | command _ payload => do return (← ShellCommandService.draft env user payload).1

/-- The user of a request, and what it generates. -/
def drafted (r : GeneratorRequest) : Db (User × String) := do
  let user ← getCurrentUser env r.access
  return (user, ← r.draft env user)

/-- The route of a request. -/
def route : GeneratorRequest → Db GeneratorResponseBody
  | dockerfile access payload => do
    let user ← getCurrentUser env access
    return .dockerfile (← DockerGeneratorService.generate env user payload)
  | kubernetes access payload => do
    let user ← getCurrentUser env access
    return .kubernetes (← KubernetesGeneratorService.generate env user payload)
  | pipeline access payload => do
    let user ← getCurrentUser env access
    return .pipeline (← PipelineGeneratorService.generate env user payload)
  | command access payload => do
    let user ← getCurrentUser env access
    return .command (← ShellCommandService.generate env user payload)

/-- The program of a request. -/
def serve (r : GeneratorRequest) : Db GeneratorResponseBody := getDb (r.route env)

end GeneratorRequest

end DevOps

namespace DevOps

open Txn

variable (env : Env)

/-- The requests to `/artifacts`; `access` is the bearer token. -/
inductive ArtifactRequest where
  | create (access : RawToken) (payload : ArtifactCreateRequest)
  | get (access : RawToken) (artifactId : UUID)
  | update (access : RawToken) (artifactId : UUID) (name description : Option String)
  | delete (access : RawToken) (artifactId : UUID)
  | listVersions (access : RawToken) (artifactId : UUID) (limit offset : ℕ)
  | getVersion (access : RawToken) (artifactId : UUID) (versionNumber : ℕ)
  | addVersion (access : RawToken) (artifactId : UUID) (content : String)
  | restoreVersion (access : RawToken) (artifactId : UUID) (versionNumber : ℕ)
  | archive (access : RawToken) (artifactId : UUID)
  | unarchive (access : RawToken) (artifactId : UUID)

/-- The bodies of successful responses. -/
inductive ArtifactResponseBody where
  | detail (r : ArtifactDetailResponse)
  | summary (r : ArtifactSummaryResponse)
  | version (v : ArtifactVersion)
  | versions (p : Page ArtifactVersion)
  | restored (r : ArtifactRestoreResponse)
  | message (m : String)

namespace ArtifactRequest

/-- The route of a request. -/
def route : ArtifactRequest → Db ArtifactResponseBody
  | create access payload => do
    let user ← getCurrentUser env access
    return .detail (← ArtifactService.create env user payload)
  | get access artifactId => do
    let user ← getCurrentUser env access
    return .detail (← ArtifactService.getArtifact user artifactId)
  | update access artifactId name description => do
    let user ← getCurrentUser env access
    return .summary (← ArtifactService.updateArtifact user artifactId name description)
  | delete access artifactId => do
    let user ← getCurrentUser env access
    ArtifactService.deleteArtifact user artifactId
    return .message "Artifact deleted"
  | listVersions access artifactId limit offset => do
    let user ← getCurrentUser env access
    return .versions (← ArtifactService.listVersions user artifactId limit offset)
  | getVersion access artifactId versionNumber => do
    let user ← getCurrentUser env access
    return .version (← ArtifactService.getVersion user artifactId versionNumber)
  | addVersion access artifactId content => do
    let user ← getCurrentUser env access
    return .version (← ArtifactService.addVersion env user artifactId content)
  | restoreVersion access artifactId versionNumber => do
    let user ← getCurrentUser env access
    return .restored (← ArtifactService.restoreVersion env user artifactId versionNumber)
  | archive access artifactId => do
    let user ← getCurrentUser env access
    return .summary (← ArtifactService.archive user artifactId)
  | unarchive access artifactId => do
    let user ← getCurrentUser env access
    return .summary (← ArtifactService.unarchive user artifactId)

end ArtifactRequest

/-- A request that writes artifacts. -/
inductive WorkspaceRequest where
  | artifact (r : ArtifactRequest)
  | generator (r : GeneratorRequest)

/-- The body of a successful response. -/
inductive WorkspaceResponse where
  | artifact (b : ArtifactResponseBody)
  | generator (b : GeneratorResponseBody)

namespace WorkspaceRequest

/-- The route of a request. -/
def route : WorkspaceRequest → Db WorkspaceResponse
  | artifact r => do return .artifact (← r.route env)
  | generator r => do return .generator (← r.route env)

/-- The program of a request. -/
def serve (r : WorkspaceRequest) : Db WorkspaceResponse := getDb (r.route env)

end WorkspaceRequest

/-- The interleaved sessions on artifacts. -/
abbrev WorkspaceConfig := Config Row Answer Exc WorkspaceResponse WorkspaceRequest World

/-- The interleaved sessions on artifacts, with what they have been told. -/
abbrev WorkspaceRun := Recorded Row Answer Exc WorkspaceResponse WorkspaceRequest World

end DevOps
