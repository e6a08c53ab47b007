import DevOpsAssistant.Repositories.Artifacts
import DevOpsAssistant.Services.OrganizationService

/-!
# Artifacts and their versions

`ArtifactService`: artifacts are created, renamed, archived and deleted; a version is added with new
content, or as a copy of an earlier one. Every change of the content makes a version current.
-/

namespace DevOps

open Txn

variable (env : Env)

def computeContentHash (content : String) : String := env.sha256 content

/-- `_validate_content_size`. -/
def validateContentSize (content : String) : Db Unit :=
  if env.settings.maxArtifactContentSizeBytes < content.utf8ByteSize then
    throw (ValidationAppError "Artifact content exceeds maximum allowed size")
  else pure ()

/-- `ArtifactCreateRequest`. -/
structure ArtifactCreateRequest where
  name : String
  description : Option String
  artifactType : ArtifactType
  content : String
  organizationId : Option UUID

/-- `ArtifactSummaryResponse`. -/
structure ArtifactSummaryResponse where
  id : UUID
  userId : UUID
  organizationId : Option UUID
  artifactType : ArtifactType
  name : String
  description : Option String
  currentVersionId : Option UUID
  currentVersionNumber : Option ℕ
  archivedAt : Option Time
  isFavorited : Bool
  tags : List String
  createdAt : Time
  updatedAt : Time

/-- `ArtifactDetailResponse`. -/
structure ArtifactDetailResponse extends ArtifactSummaryResponse where
  currentVersion : Option ArtifactVersion

/-- `ArtifactRestoreResponse`. -/
structure ArtifactRestoreResponse where
  artifact : ArtifactDetailResponse
  restoredFromVersion : ℕ
  newVersion : ArtifactVersion

namespace ArtifactService

/-- `_require_read` and `_require_write`, with their permission. -/
def requireAccess (permission : Permission) (user : User) (artifact : GeneratedArtifact) : Db Unit :=
  match artifact.organizationId with
  | none => if artifact.userId ≠ user.id then throw (NotFoundError "Artifact not found") else pure ()
  | some organizationId => do
    let _ ← OrganizationAuthService.requirePermission organizationId user.id permission

def requireRead : User → GeneratedArtifact → Db Unit := requireAccess .artifactRead

def requireWrite : User → GeneratedArtifact → Db Unit := requireAccess .artifactWrite

/-- `_validate_org_create`. -/
def validateOrgCreate (user : User) : Option UUID → Db Unit
  | none => pure ()
  | some organizationId => do
    let _ ← OrganizationAuthService.requirePermission organizationId user.id .artifactWrite

/-- `_to_summary`. -/
def toSummary (artifact : GeneratedArtifact) (versionNumber : Option ℕ) (isFavorited : Bool)
    (tagNames : List String := []) : ArtifactSummaryResponse :=
  { id := artifact.id, userId := artifact.userId, organizationId := artifact.organizationId,
    artifactType := artifact.artifactType, name := artifact.name,
    description := artifact.description, currentVersionId := artifact.currentVersionId,
    currentVersionNumber := versionNumber, archivedAt := artifact.archivedAt, isFavorited,
    tags := tagNames, createdAt := artifact.createdAt, updatedAt := artifact.updatedAt }

/-- The current version: `session.get` reads it, unless the session holds it. -/
def currentVersion (artifact : GeneratedArtifact) (held : List ArtifactVersion) :
    Db (Option ArtifactVersion) :=
  match artifact.currentVersionId with
  | none => pure none
  | some id =>
    match held.find? fun v => v.id = id with
    | some version => pure (some version)
    | none => do scalarOneOrNone (← selectOf fun v : ArtifactVersion => v.id = id)

/-- `_to_detail`. -/
def toDetail (artifact : GeneratedArtifact) (held : List ArtifactVersion) :
    Db ArtifactDetailResponse := do
  let version ← currentVersion artifact held
  return { toSummary artifact (version.map (·.versionNumber)) false with currentVersion := version }

def create (user : User) (payload : ArtifactCreateRequest) : Db ArtifactDetailResponse := do
  validateContentSize env payload.content
  validateOrgCreate user payload.organizationId
  let artifact ← ArtifactRepository.createArtifact user.id payload.organizationId
    payload.artifactType payload.name payload.description payload.content
  let version ← ArtifactVersionRepository.createVersion artifact.id 1 payload.content
    (computeContentHash env payload.content) user.id
  let artifact ← ArtifactRepository.updateArtifact artifact
    { content := some payload.content, currentVersionId := some version.id }
  AuditService.recordEvent "artifact.created" user.id artifact.organizationId "artifact" artifact.id
  OnboardingService.tryMarkFlag user.id (·.firstArtifactCreated)
    (fun o => { o with firstArtifactCreated := true }) fun _ => rfl
  toDetail artifact [version]

def getArtifact (user : User) (artifactId : UUID) : Db ArtifactDetailResponse := do
  match ← ArtifactRepository.getArtifact artifactId with
  | none => throw (NotFoundError "Artifact not found")
  | some artifact =>
    requireRead user artifact
    toDetail artifact []

def updateArtifact (user : User) (artifactId : UUID) (name description : Option String) :
    Db ArtifactSummaryResponse := do
  match ← ArtifactRepository.getArtifact artifactId with
  | none => throw (NotFoundError "Artifact not found")
  | some artifact =>
    requireWrite user artifact
    if name.isNone && description.isNone then throw (ValidationAppError "No fields to update")
    else
      let updated ← ArtifactRepository.updateArtifact artifact { name, description }
      let version ← currentVersion updated []
      return toSummary updated (version.map (·.versionNumber)) false

def deleteArtifact (user : User) (artifactId : UUID) : Db Unit := do
  match ← ArtifactRepository.getArtifact artifactId with
  | none => throw (NotFoundError "Artifact not found")
  | some artifact =>
    requireWrite user artifact
    let _ ← ArtifactRepository.softDelete artifact
    AuditService.recordEvent "artifact.deleted" user.id artifact.organizationId "artifact"
      artifact.id

def listVersions (user : User) (artifactId : UUID) (limit offset : ℕ) :
    Db (Page ArtifactVersion) := do
  match ← ArtifactRepository.getArtifact artifactId with
  | none => throw (NotFoundError "Artifact not found")
  | some artifact =>
    requireRead user artifact
    let (versions, total) ← ArtifactVersionRepository.listVersions artifactId limit offset
    return ⟨versions, total⟩

def getVersion (user : User) (artifactId : UUID) (versionNumber : ℕ) : Db ArtifactVersion := do
  match ← ArtifactRepository.getArtifact artifactId with
  | none => throw (NotFoundError "Artifact not found")
  | some artifact =>
    requireRead user artifact
    match ← ArtifactVersionRepository.getByNumber artifactId versionNumber with
    | none => throw (NotFoundError "Artifact version not found")
    | some version => return version

/-- The new version of a locked artifact becomes its current one. -/
def appendVersion (user : User) (artifact : GeneratedArtifact) (content : String) :
    Db (GeneratedArtifact × ArtifactVersion) := do
  let nextNumber := (← ArtifactVersionRepository.getMaxVersionNumber artifact.id) + 1
  let version ← ArtifactVersionRepository.createVersion artifact.id nextNumber content
    (computeContentHash env content) user.id
  let artifact ← ArtifactRepository.updateArtifact artifact
    { currentVersionId := some version.id, content := some content }
  AuditService.recordEvent "artifact.version_created" user.id artifact.organizationId "artifact"
    artifact.id
  return (artifact, version)

def addVersion (user : User) (artifactId : UUID) (content : String) : Db ArtifactVersion := do
  validateContentSize env content
  match ← ArtifactRepository.getArtifactForUpdate artifactId with
  | none => throw (NotFoundError "Artifact not found")
  | some artifact =>
    requireWrite user artifact
    match ← ArtifactVersionRepository.getByHash artifact.id (computeContentHash env content) with
    | some existing =>
      if artifact.currentVersionId ≠ some existing.id then
        let _ ← ArtifactRepository.updateArtifact artifact
          { currentVersionId := some existing.id, content := some existing.content }
        return existing
      else return existing
    | none =>
      let (_, version) ← appendVersion env user artifact content
      return version

def restoreVersion (user : User) (artifactId : UUID) (versionNumber : ℕ) :
    Db ArtifactRestoreResponse := do
  match ← ArtifactRepository.getArtifactForUpdate artifactId with
  | none => throw (NotFoundError "Artifact not found")
  | some artifact =>
    requireWrite user artifact
    match ← ArtifactVersionRepository.getByNumber artifact.id versionNumber with
    | none => throw (NotFoundError "Artifact version not found")
    | some source =>
      let (artifact, version) ← appendVersion env user artifact source.content
      AuditService.recordEvent "artifact.restored" user.id artifact.organizationId "artifact"
        artifact.id
      let detail ← toDetail artifact [source, version]
      return ⟨detail, versionNumber, version⟩

def archive (user : User) (artifactId : UUID) : Db ArtifactSummaryResponse := do
  match ← ArtifactRepository.getArtifactForUpdate artifactId with
  | none => throw (NotFoundError "Artifact not found")
  | some artifact =>
    requireWrite user artifact
    let updated ← ArtifactTagRepository.setArchived artifact true
    let isFavorited ← ArtifactTagRepository.isFavorited user.id artifact.id
    return toSummary updated none isFavorited

def unarchive (user : User) (artifactId : UUID) : Db ArtifactSummaryResponse := do
  match ← ArtifactRepository.getArtifactForUpdate artifactId with
  | none => throw (NotFoundError "Artifact not found")
  | some artifact =>
    requireWrite user artifact
    let updated ← ArtifactTagRepository.setArchived artifact false
    return toSummary updated none false

end ArtifactService

end DevOps
