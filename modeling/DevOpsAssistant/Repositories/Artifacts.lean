import DevOpsAssistant.Repositories.Work

/-!
# Repositories of artifacts and policy packs

* `ArtifactRepository`: the rows of artifacts; `ArtifactVersionRepository`: their versions.
* `ArtifactTagRepository`: the archive, the favorites and the tags.
* `PolicyRepository`: the active packs of an organization with their rules.
-/

namespace DevOps

open Txn

/-! ## Artifacts -/

/-- The artifact `id`, if it is not deleted. -/
def activeArtifact (id : UUID) (a : GeneratedArtifact) : Bool := a.id = id && a.deletedAt.isNone

theorem activeArtifact_eq {id : UUID} {a : GeneratedArtifact} :
    activeArtifact id a = true ↔ a.id = id ∧ a.deletedAt = none := by
  simp [activeArtifact]

namespace ArtifactRepository

def createArtifact (userId : UUID) (organizationId : Option UUID) (artifactType : ArtifactType)
    (name : String) (description : Option String) (content : String) : Db GeneratedArtifact := do
  let id ← uuid4
  let createdAt ← now
  let updatedAt ← now
  let artifact : GeneratedArtifact :=
    { id, userId, organizationId, artifactType, name, description, content,
      currentVersionId := none, createdAt, updatedAt, deletedAt := none, archivedAt := none }
  insertOf (fun _ : GeneratedArtifact => false) artifact
  return artifact

def getArtifactForUpdate (artifactId : UUID) : Db (Option GeneratedArtifact) := do
  scalarOneOrNone (← lockOf (activeArtifact artifactId))

def getArtifact (artifactId : UUID) : Db (Option GeneratedArtifact) := do
  scalarOneOrNone (← selectOf (activeArtifact artifactId))

/-- The arguments of `update_artifact`; the attributes that are `none` stay. -/
structure Changes where
  name : Option String := none
  description : Option String := none
  content : Option String := none
  currentVersionId : Option UUID := none

/-- The row after the flush of the changes to an object that was loaded as `loaded`. -/
def Changes.flush (c : Changes) (loaded : GeneratedArtifact) (updatedAt : Time)
    (row : GeneratedArtifact) : GeneratedArtifact :=
  { row with
    name := flushed loaded.name (c.name.getD loaded.name) row.name
    description := flushed loaded.description (c.description <|> loaded.description) row.description
    content := flushed loaded.content (c.content.getD loaded.content) row.content
    currentVersionId :=
      flushed loaded.currentVersionId (c.currentVersionId <|> loaded.currentVersionId)
        row.currentVersionId
    updatedAt }

def updateArtifact (artifact : GeneratedArtifact) (c : Changes) : Db GeneratedArtifact := do
  let updatedAt ← now
  updateById artifact.id (c.flush artifact updatedAt) fun _ => rfl

def softDelete (artifact : GeneratedArtifact) : Db GeneratedArtifact := do
  let deletedAt ← now
  let updatedAt ← now
  updateById artifact.id
    (fun a : GeneratedArtifact => { a with deletedAt := some deletedAt, updatedAt }) fun _ => rfl

end ArtifactRepository

/-! ## Versions -/

/-- A version of the artifact `a`. -/
def versionOf (a : UUID) (v : ArtifactVersion) : Bool := v.artifactId = a

/-- The version `n` of the artifact `a`. -/
def versionNumbered (a : UUID) (n : ℕ) (v : ArtifactVersion) : Bool :=
  v.artifactId = a && v.versionNumber = n

/-- A version of the artifact `a` with the hash `hash`. -/
def versionHashed (a : UUID) (hash : String) (v : ArtifactVersion) : Bool :=
  v.artifactId = a && v.contentHash = hash

theorem versionNumbered_eq {a : UUID} {n : ℕ} {v : ArtifactVersion} :
    versionNumbered a n v = true ↔ v.artifactId = a ∧ v.versionNumber = n := by
  simp [versionNumbered]

theorem versionHashed_eq {a : UUID} {hash : String} {v : ArtifactVersion} :
    versionHashed a hash v = true ↔ v.artifactId = a ∧ v.contentHash = hash := by
  simp [versionHashed]

namespace ArtifactVersionRepository

def getByNumber (artifactId : UUID) (versionNumber : ℕ) : Db (Option ArtifactVersion) := do
  scalarOneOrNone (← selectOf (versionNumbered artifactId versionNumber))

/-- The versions, the latest first. -/
def newestFirst (versions : List ArtifactVersion) : List ArtifactVersion :=
  versions.mergeSort fun a b => b.versionNumber ≤ a.versionNumber

def getByHash (artifactId : UUID) (contentHash : String) : Db (Option ArtifactVersion) := do
  return (newestFirst (← selectOf (versionHashed artifactId contentHash))).head?

/-- The greatest number of the versions, or 0. -/
def maxNumber (versions : List ArtifactVersion) : ℕ :=
  (versions.map (·.versionNumber)).foldr max 0

def getMaxVersionNumber (artifactId : UUID) : Db ℕ := do
  return maxNumber (← selectOf (versionOf artifactId))

def listVersions (artifactId : UUID) (limit offset : ℕ) : Db (List ArtifactVersion × ℕ) := do
  let versions ← selectOf (versionOf artifactId)
  return (((newestFirst versions).drop offset).take limit, versions.length)

def createVersion (artifactId : UUID) (versionNumber : ℕ) (content contentHash : String)
    (createdBy : UUID) : Db ArtifactVersion := do
  let id ← uuid4
  let createdAt ← now
  let version : ArtifactVersion :=
    ⟨id, artifactId, versionNumber, content, contentHash, createdBy, createdAt⟩
  insertOf (versionNumbered artifactId versionNumber) version
  return version

end ArtifactVersionRepository

/-! ## The archive and the favorites -/

namespace ArtifactTagRepository

/-- The row after the flush of `archived_at`, which was loaded as `loaded`. -/
def archivedRow (loaded archivedAt : Option Time) (updatedAt : Time) (row : GeneratedArtifact) :
    GeneratedArtifact :=
  { row with archivedAt := flushed loaded archivedAt row.archivedAt, updatedAt }

def setArchived (artifact : GeneratedArtifact) (archived : Bool) : Db GeneratedArtifact := do
  let archivedAt ← if archived then (do return some (← now)) else (pure none : Db (Option Time))
  let updatedAt ← now
  updateById artifact.id (archivedRow artifact.archivedAt archivedAt updatedAt) fun _ => rfl

def isFavorited (userId artifactId : UUID) : Db Bool := do
  let favorites ← selectOf fun f : ArtifactFavorite => f.userId = userId && f.artifactId = artifactId
  return !favorites.isEmpty

end ArtifactTagRepository

/-! ## Tags -/

/-- The tag of the scope whose name is `normalized` in lower case. -/
def scopedTag (env : Env) (userId : UUID) (organizationId : Option UUID) (normalized : String)
    (t : ArtifactTag) : Bool :=
  t.userId = userId && t.organizationId = organizationId && env.lower t.name = normalized

/-- `uq_artifact_tag_scope_name`: rows without an organization are all different. -/
def sameTag (tag t : ArtifactTag) : Bool :=
  tag.organizationId.isSome && t.organizationId = tag.organizationId && t.userId = tag.userId
    && t.name = tag.name

/-- The association of the tag with the artifact. -/
def associationOf (artifactId tagId : UUID) (a : ArtifactTagAssociation) : Bool :=
  a.artifactId = artifactId && a.tagId = tagId

namespace ArtifactTagRepository

/-- A new color is written with the next flush, at the latest with the commit. -/
def getOrCreateTag (env : Env) (userId : UUID) (name : String) (organizationId : Option UUID)
    (color : Option String) : Db ArtifactTag := do
  let normalized := env.lower (env.strip name)
  match ← scalarOneOrNone (← selectOf (scopedTag env userId organizationId normalized)) with
  | some tag =>
    if color.isNone || color = tag.color then return tag
    else updateById tag.id (fun t : ArtifactTag => { t with color }) fun _ => rfl
  | none =>
    let id ← uuid4
    let createdAt ← now
    let tag : ArtifactTag := ⟨id, organizationId, userId, env.strip name, color, createdAt⟩
    insertOf (sameTag tag) tag
    return tag

def getTag (tagId : UUID) : Db (Option ArtifactTag) := do
  scalarOneOrNone (← selectOf fun t : ArtifactTag => t.id = tagId)

def addTagToArtifact (artifactId tagId : UUID) : Db ArtifactTagAssociation := do
  match ← scalarOneOrNone (← selectOf (associationOf artifactId tagId)) with
  | some existing => return existing
  | none =>
    let id ← uuid4
    let createdAt ← now
    let association : ArtifactTagAssociation := ⟨id, artifactId, tagId, createdAt⟩
    insertOf (associationOf artifactId tagId) association
    return association

def removeTagFromArtifact (artifactId tagId : UUID) : Db Bool := do
  let removed ← deleteOf (associationOf artifactId tagId)
  return !removed.isEmpty

def listTagsForArtifact (artifactId : UUID) : Db (List ArtifactTag) := do
  let associations ← selectOf fun a : ArtifactTagAssociation => a.artifactId = artifactId
  let tags ← selectOf fun t : ArtifactTag => associations.any fun a => a.tagId = t.id
  return tags.mergeSort fun t t' => t.name ≤ t'.name

end ArtifactTagRepository

/-! ## Policy packs -/

/-- An active pack of the organization `o` among the packs `ids`. -/
def activePack (o : UUID) (ids : List UUID) (p : PolicyPack) : Bool :=
  p.organizationId = o && p.id ∈ ids && p.isActive && p.deletedAt.isNone

namespace PolicyRepository

/-- The packs with their rules; none at all, if one is missing. -/
def getActivePacksByIds (organizationId : UUID) (policyPackIds : List UUID) :
    Db (List (PolicyPack × List PolicyRule)) := do
  if policyPackIds.isEmpty then return []
  else
    let packs ← selectOf (activePack organizationId policyPackIds)
    let rules ← selectOf fun r : PolicyRule => packs.any fun p => p.id = r.policyPackId
    if packs.length ≠ policyPackIds.dedup.length then return []
    else return packs.map fun p => (p, rules.filter fun r => r.policyPackId = p.id)

end PolicyRepository

end DevOps
