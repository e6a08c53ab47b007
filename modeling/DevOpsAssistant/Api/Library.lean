import DevOpsAssistant.Api.Accounts
import DevOpsAssistant.Api.Artifacts
import DevOpsAssistant.Services.ArtifactListing

/-!
# The requests about artifacts and tags

* `TagRequest`: tags are created, added to artifacts and removed from them.
* `TagRequest.serve`: the program of a request, inside the unit of work of `getDb`.
* `LibraryRequest`: the requests that write artifacts, tags or favorites.
* `SummaryRequest`: those that return what one artifact is like.
-/

namespace DevOps

open Txn

variable (env : Env)

/-- The requests to `/artifacts/tags` and `/artifacts/{artifact_id}/tags`; `access` is the bearer
token. -/
inductive TagRequest where
  | createTag (access : RawToken) (payload : ArtifactTagCreateRequest) (organizationId : Option UUID)
  | addTag (access : RawToken) (artifactId : UUID) (payload : ArtifactTagAssignRequest)
  | removeTag (access : RawToken) (artifactId tagId : UUID)

/-- The bodies of successful responses. -/
inductive TagResponseBody where
  | tag (t : ArtifactTagResponse)
  | tags (ts : List ArtifactTagResponse)

namespace TagRequest

/-- The route of a request. -/
def route : TagRequest → Db TagResponseBody
  | createTag access payload organizationId => do
    let user ← getCurrentUser env access
    return .tag (← ArtifactService.createTag env user payload organizationId)
  | addTag access artifactId payload => do
    let user ← getCurrentUser env access
    return .tags (← ArtifactService.addTag env user artifactId payload)
  | removeTag access artifactId tagId => do
    let user ← getCurrentUser env access
    return .tags (← ArtifactService.removeTag user artifactId tagId)

/-- The program of a request. -/
def serve (r : TagRequest) : Db TagResponseBody := getDb (r.route env)

end TagRequest

end DevOps

namespace DevOps

open Txn

variable (env : Env)

/-- A request that writes artifacts, tags or favorites. -/
inductive LibraryRequest where
  | workspace (r : WorkspaceRequest)
  | tag (r : TagRequest)
  | favorite (access : RawToken) (artifactId : UUID)
  | unfavorite (access : RawToken) (artifactId : UUID)

/-- The body of a successful response. -/
inductive LibraryResponse where
  | workspace (b : WorkspaceResponse)
  | tag (b : TagResponseBody)
  | message (m : String)

namespace LibraryRequest

/-- The route of a request. -/
def route : LibraryRequest → Db LibraryResponse
  | workspace r => do return .workspace (← r.route env)
  | tag r => do return .tag (← r.route env)
  | favorite access artifactId => do
    let user ← getCurrentUser env access
    ArtifactService.favorite user artifactId
    return .message "Artifact favorited"
  | unfavorite access artifactId => do
    let user ← getCurrentUser env access
    ArtifactService.unfavorite user artifactId
    return .message "Artifact unfavorited"

/-- The program of a request. -/
def serve (r : LibraryRequest) : Db LibraryResponse := getDb (r.route env)

end LibraryRequest

/-- The interleaved sessions on artifacts, tags and favorites. -/
abbrev LibraryConfig := Config Row Answer Exc LibraryResponse LibraryRequest World

/-- A request about one artifact, whose response has the fields of its summary. -/
inductive SummaryRequest where
  | get
  | update (name description : Option String)
  | archive
  | unarchive

/-- The service of a request. -/
def SummaryRequest.service (user : User) (artifactId : UUID) :
    SummaryRequest → Db ArtifactSummaryResponse
  | get => do return (← ArtifactService.getArtifact user artifactId).toArtifactSummaryResponse
  | update name description => ArtifactService.updateArtifact user artifactId name description
  | archive => ArtifactService.archive user artifactId
  | unarchive => ArtifactService.unarchive user artifactId

end DevOps
