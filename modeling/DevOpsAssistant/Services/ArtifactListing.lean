import DevOpsAssistant.Repositories.ArtifactListing
import DevOpsAssistant.Services.ArtifactService

/-!
# Tags, favorites and the listing of artifacts

* `ArtifactService`: a tag is created for a user, in an organization or in none; a tag is added to an
  artifact, by its id or by its name, and removed from it.
* `ArtifactService.favorite`, `ArtifactService.unfavorite`: a user marks an artifact.
* `ArtifactListQuery`: what a listing is asked for.
* `ArtifactService.listArtifacts`: a page of summaries, with the tags, the favorites and the numbers of
  the current versions.
-/

namespace DevOps

open Txn

/-- `ArtifactTagCreateRequest`. -/
structure ArtifactTagCreateRequest where
  name : String
  color : Option String
  nameLength : 1 ≤ name.length ∧ name.length ≤ 80
  colorLength : ∀ c ∈ color, c.length ≤ 20

/-- `ArtifactTagAssignRequest`. -/
structure ArtifactTagAssignRequest where
  tagId : Option UUID
  name : Option String
  color : Option String
  nameLength : ∀ n ∈ name, 1 ≤ n.length ∧ n.length ≤ 80
  colorLength : ∀ c ∈ color, c.length ≤ 20

/-- `ArtifactTagResponse`. -/
structure ArtifactTagResponse where
  id : UUID
  organizationId : Option UUID
  userId : UUID
  name : String
  color : Option String
  createdAt : Time

def ArtifactTagResponse.ofTag (t : ArtifactTag) : ArtifactTagResponse :=
  ⟨t.id, t.organizationId, t.userId, t.name, t.color, t.createdAt⟩

namespace ArtifactService

variable (env : Env)

def createTag (user : User) (payload : ArtifactTagCreateRequest) (organizationId : Option UUID) :
    Db ArtifactTagResponse := do
  validateOrgCreate user organizationId
  let tag ← ArtifactTagRepository.getOrCreateTag env user.id payload.name organizationId payload.color
  return .ofTag tag

/-- The tag a request names: by its id, which is looked up among all tags, or by its name, which is
looked up among those of the user in the organization of the artifact. -/
def assignedTag (user : User) (artifact : GeneratedArtifact) (payload : ArtifactTagAssignRequest) :
    Db ArtifactTag :=
  match payload.tagId with
  | some tagId => do
    match ← ArtifactTagRepository.getTag tagId with
    | none => throw (NotFoundError "Tag not found")
    | some tag => return tag
  | none =>
    match payload.name with
    | none => throw (ValidationAppError "Tag name or tag_id is required")
    | some name =>
      if name = "" then throw (ValidationAppError "Tag name or tag_id is required")
      else
        ArtifactTagRepository.getOrCreateTag env user.id name artifact.organizationId payload.color

def addTag (user : User) (artifactId : UUID) (payload : ArtifactTagAssignRequest) :
    Db (List ArtifactTagResponse) := do
  match ← ArtifactRepository.getArtifact artifactId with
  | none => throw (NotFoundError "Artifact not found")
  | some artifact =>
    requireWrite user artifact
    let tag ← assignedTag env user artifact payload
    let _ ← ArtifactTagRepository.addTagToArtifact artifact.id tag.id
    let tags ← ArtifactTagRepository.listTagsForArtifact artifact.id
    return tags.map .ofTag

def removeTag (user : User) (artifactId tagId : UUID) : Db (List ArtifactTagResponse) := do
  match ← ArtifactRepository.getArtifact artifactId with
  | none => throw (NotFoundError "Artifact not found")
  | some artifact =>
    requireWrite user artifact
    let _ ← ArtifactTagRepository.removeTagFromArtifact artifact.id tagId
    let tags ← ArtifactTagRepository.listTagsForArtifact artifact.id
    return tags.map .ofTag

end ArtifactService

end DevOps

namespace DevOps

open Txn

namespace ArtifactTagRepository

/-- The mark of the user at the artifact. -/
def favoriteOf (userId artifactId : UUID) (f : ArtifactFavorite) : Bool :=
  f.userId = userId && f.artifactId = artifactId

def favoriteArtifact (userId artifactId : UUID) : Db ArtifactFavorite := do
  match ← scalarOneOrNone (← selectOf (favoriteOf userId artifactId)) with
  | some favorite => return favorite
  | none =>
    let id ← uuid4
    let createdAt ← now
    let favorite : ArtifactFavorite := ⟨id, userId, artifactId, createdAt⟩
    insertOf (favoriteOf userId artifactId) favorite
    return favorite

def unfavoriteArtifact (userId artifactId : UUID) : Db Bool := do
  let removed ← deleteOf (favoriteOf userId artifactId)
  return !removed.isEmpty

/-- The names of tags with the artifacts they are at, in the order of the names. -/
def taggedNames (artifactIds : List UUID) (rows : List Row) : List (UUID × String) :=
  ((rowsIn rows : List ArtifactTagAssociation).flatMap fun association =>
    if association.artifactId ∈ artifactIds then
      ((rowsIn rows : List ArtifactTag).filter fun tag => tag.id = association.tagId).map
        fun tag => (association.artifactId, tag.name)
    else []).mergeSort fun x y => x.2 ≤ y.2

def listTagsForArtifacts (artifactIds : List UUID) : Db (UUID → List String) := do
  if artifactIds.isEmpty then return fun _ => []
  else
    let named := taggedNames artifactIds (← snapshot)
    return fun id => (named.filter fun x => x.1 = id).map Prod.snd

def listFavoritedArtifactIds (userId : UUID) (artifactIds : List UUID) : Db (List UUID) := do
  if artifactIds.isEmpty then return []
  else
    let favorites ← selectOf fun f : ArtifactFavorite =>
      f.userId = userId && artifactIds.contains f.artifactId
    return favorites.map (·.artifactId)

end ArtifactTagRepository

/-- The arguments of `list_artifacts`. -/
structure ArtifactListQuery where
  organizationId : Option UUID := none
  limit : ℕ
  offset : ℕ
  search : Option String := none
  tags : Option (List String) := none
  favoritesOnly : Bool := false
  includeArchived : Bool := false
  archivedOnly : Bool := false
  creatorId : Option UUID := none
  artifactType : Option ArtifactType := none
  createdFrom : Option Time := none
  createdTo : Option Time := none
  updatedFrom : Option Time := none
  updatedTo : Option Time := none
  sortBy : SortField := .updatedAt
  sortOrder : SortOrder := .desc

/-- The conditions of the query: on the organization, or on the artifacts of the user. -/
def ArtifactListQuery.filters (q : ArtifactListQuery) (user : User) : ArtifactFilters :=
  { userId := if q.organizationId.isNone then some user.id else none
    organizationId := q.organizationId
    search := q.search
    tagNames := q.tags
    favoritesOnly := q.favoritesOnly
    favoritesUserId := if q.favoritesOnly then some user.id else none
    includeArchived := q.includeArchived
    archivedOnly := q.archivedOnly
    creatorId := q.creatorId
    artifactType := q.artifactType
    createdFrom := q.createdFrom
    createdTo := q.createdTo
    updatedFrom := q.updatedFrom
    updatedTo := q.updatedTo }

namespace ArtifactService

/-- `favorite`. -/
def favorite (user : User) (artifactId : UUID) : Db Unit := do
  match ← ArtifactRepository.getArtifact artifactId with
  | none => throw (NotFoundError "Artifact not found")
  | some artifact =>
    requireRead user artifact
    let _ ← ArtifactTagRepository.favoriteArtifact user.id artifact.id

/-- `unfavorite`. -/
def unfavorite (user : User) (artifactId : UUID) : Db Unit := do
  match ← ArtifactRepository.getArtifact artifactId with
  | none => throw (NotFoundError "Artifact not found")
  | some artifact =>
    requireRead user artifact
    let _ ← ArtifactTagRepository.unfavoriteArtifact user.id artifact.id

/-- The number of the current version, among the versions of the artifact. -/
def versionNumber (versions : List ArtifactVersion) (artifact : GeneratedArtifact) : Option ℕ :=
  ((versions.filter fun v => v.artifactId = artifact.id).find? fun v =>
    artifact.currentVersionId = some v.id).map (·.versionNumber)

/-- The permission to list the artifacts of an organization. -/
def requireList (user : User) : Option UUID → Db Unit
  | none => pure ()
  | some organizationId => do
    let _ ← OrganizationAuthService.requirePermission organizationId user.id .artifactRead

/-- The page, which the `n`-th query returns, and the number of artifacts. The versions come with the
artifacts. -/
def listArtifacts (env : Env) (engine : SqlEngine) (user : User) (q : ArtifactListQuery) (n : ℕ) :
    Db (List ArtifactSummaryResponse × ℕ) := do
  requireList user q.organizationId
  let (items, total) ← ArtifactTagRepository.listArtifactsFiltered env engine (q.filters user)
    q.sortBy q.sortOrder q.limit q.offset n
  let artifactIds := items.map (·.id)
  let versions ← selectOf fun v : ArtifactVersion => artifactIds.contains v.artifactId
  let tagsByArtifact ← ArtifactTagRepository.listTagsForArtifacts artifactIds
  let favoritedIds ← ArtifactTagRepository.listFavoritedArtifactIds user.id artifactIds
  let summaries := items.map fun artifact =>
    toSummary artifact (versionNumber versions artifact) (favoritedIds.contains artifact.id)
      (tagsByArtifact artifact.id)
  return (summaries, total)

end ArtifactService

end DevOps
