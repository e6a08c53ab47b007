import DevOpsAssistant.Lists.Ordered
import DevOpsAssistant.Repositories.Artifacts

/-!
# The listing of artifacts

* `SqlEngine`: what the database engine decides: patterns, and the order of values.
* `ArtifactFilters`: the conditions of a listing; `SortField`, `SortOrder`: its order.
* `matchingRows`, `sortedRows`: the query without and with its order.
* `ArtifactTagRepository.listArtifactsFiltered`: one page, and the number of artifacts.
-/

namespace DevOps

open Txn

/-! ## The order of a listing -/

/-- What artifacts are sorted by: a column of their table, or the number of the current version. -/
inductive SortField where
  | id
  | userId
  | organizationId
  | artifactType
  | name
  | description
  | content
  | currentVersionId
  | createdAt
  | updatedAt
  | deletedAt
  | archivedAt
  | currentVersionNumber
deriving DecidableEq

inductive SortOrder where
  | asc
  | desc
deriving DecidableEq

/-- A value of a column. -/
inductive SqlValue where
  | null
  | number (n : ℕ)
  | text (s : String)
deriving DecidableEq

def SqlValue.ofNumber : Option ℕ → SqlValue
  | none => .null
  | some n => .number n

def SqlValue.ofText : Option String → SqlValue
  | none => .null
  | some s => .text s

def ArtifactType.value : ArtifactType → String
  | .dockerfile => "dockerfile"
  | .kubernetes => "kubernetes"
  | .githubActions => "github-actions"
  | .gitlabCi => "gitlab-ci"
  | .jenkins => "jenkins"
  | .terraform => "terraform"
  | .shellCommand => "shell-command"
  | .incidentReport => "incident-report"
  | .runbook => "runbook"
  | .pipeline => "pipeline"
  | .command => "command"
  | .review => "review"
  | .other => "other"

/-- A row of the query: an artifact, and the version that is joined to it. -/
abbrev JoinedRow := GeneratedArtifact × Option ArtifactVersion

/-- The value a row is sorted by. -/
def SortField.valueOf (field : SortField) (row : JoinedRow) : SqlValue :=
  match field with
  | id => .number row.1.id
  | userId => .number row.1.userId
  | organizationId => .ofNumber row.1.organizationId
  | artifactType => .text row.1.artifactType.value
  | name => .text row.1.name
  | description => .ofText row.1.description
  | content => .text row.1.content
  | currentVersionId => .ofNumber row.1.currentVersionId
  | createdAt => .number row.1.createdAt
  | updatedAt => .number row.1.updatedAt
  | deletedAt => .ofNumber row.1.deletedAt
  | archivedAt => .ofNumber row.1.archivedAt
  | currentVersionNumber => .ofNumber (row.2.map (·.versionNumber))

/-- What the engine decides. `le` orders the values of a column in ascending order, with `NULL` first or
last; texts that differ may be equal in it. `orderBy n` orders the rows of the `n`-th query. -/
structure SqlEngine where
  ilike : String → String → Bool
  le : SortField → SqlValue → SqlValue → Bool
  le_total : ∀ f a b, le f a b || le f b a
  le_trans : ∀ f a b c, le f a b → le f b c → le f a c
  idLe : UUID → UUID → Bool
  idLe_total : ∀ a b, idLe a b || idLe b a
  idLe_trans : ∀ a b c, idLe a b → idLe b c → idLe a c
  idLe_antisymm : ∀ a b, idLe a b → idLe b a → a = b
  orderBy : ℕ → (JoinedRow → JoinedRow → Bool) → List JoinedRow → List JoinedRow
  orderBy_perm : ∀ n le rows, (orderBy n le rows).Perm rows
  orderBy_pairwise : ∀ n le rows, (∀ a b, le a b || le b a) →
    (∀ a b c, le a b → le b c → le a c) → (orderBy n le rows).Pairwise (le · ·)

/-- Ascending by the column, then by the id. -/
def SqlEngine.ascending (engine : SqlEngine) (field : SortField) : JoinedRow → JoinedRow → Bool :=
  Lexicographic.le (fun a b => engine.le field (field.valueOf a) (field.valueOf b))
    fun a b => engine.idLe a.1.id b.1.id

/-- `ordering`, `id_ordering`. -/
def SqlEngine.rowLe (engine : SqlEngine) (field : SortField) (order : SortOrder) (a b : JoinedRow) :
    Bool :=
  match order with
  | .asc => engine.ascending field a b
  | .desc => engine.ascending field b a

/-! ## The conditions of a listing -/

/-- The arguments of `list_artifacts_filtered` that narrow the query. -/
structure ArtifactFilters where
  userId : Option UUID := none
  organizationId : Option UUID := none
  search : Option String := none
  tagNames : Option (List String) := none
  favoritesOnly : Bool := false
  favoritesUserId : Option UUID := none
  includeArchived : Bool := false
  archivedOnly : Bool := false
  creatorId : Option UUID := none
  artifactType : Option ArtifactType := none
  createdFrom : Option Time := none
  createdTo : Option Time := none
  updatedFrom : Option Time := none
  updatedTo : Option Time := none

namespace ArtifactFilters

variable (env : Env) (engine : SqlEngine) (f : ArtifactFilters)

/-- The conditions on the columns of an artifact. -/
def admits (a : GeneratedArtifact) : Bool :=
  a.deletedAt.isNone &&
  (if f.archivedOnly then a.archivedAt.isSome else f.includeArchived || a.archivedAt.isNone) &&
  (match f.organizationId, f.userId with
    | some o, _ => decide (a.organizationId = some o)
    | none, some u => decide (a.userId = u) && a.organizationId.isNone
    | none, none => true) &&
  f.creatorId.all (a.userId = ·) &&
  f.artifactType.all (a.artifactType = ·) &&
  f.createdFrom.all (· ≤ a.createdAt) && f.createdTo.all (a.createdAt ≤ ·) &&
  f.updatedFrom.all (· ≤ a.updatedAt) && f.updatedTo.all (a.updatedAt ≤ ·) &&
  f.search.all fun text =>
    let pattern := "%" ++ env.strip text ++ "%"
    text = "" || engine.ilike a.name pattern || a.description.any (engine.ilike · pattern)

/-- The names of tags an artifact must have. -/
def normalizedNames : List String :=
  ((f.tagNames.getD []).filter fun name => env.strip name ≠ "").map fun name =>
    env.lower (env.strip name)

/-- The user whose favorites are listed. -/
def favoritesOf : Option UUID := if f.favoritesOnly then f.favoritesUserId else none

end ArtifactFilters

/-! ## The query -/

/-- The rows of one table. -/
def rowsIn {T : Type} [Entity T] (rows : List Row) : List T := rows.filterMap ofRow

/-- The artifacts that have a tag of the name. -/
def taggedIds (env : Env) (name : String) (rows : List Row) : List UUID :=
  (rowsIn rows : List ArtifactTagAssociation).flatMap fun association =>
    ((rowsIn rows : List ArtifactTag).filter fun tag =>
      tag.id = association.tagId && env.lower tag.name = name).map fun _ => association.artifactId

/-- The join with the favorites of a user, if only these are listed. -/
def joinFavorites (favoritesOf : Option UUID) (rows : List Row) (a : GeneratedArtifact) :
    List GeneratedArtifact :=
  match favoritesOf with
  | none => [a]
  | some u =>
    ((rowsIn rows : List ArtifactFavorite).filter fun f => f.artifactId = a.id && f.userId = u).map
      fun _ => a

/-- The query without its order. -/
def matchingRows (env : Env) (engine : SqlEngine) (f : ArtifactFilters) (rows : List Row) :
    List GeneratedArtifact :=
  (((rowsIn rows).filter (f.admits env engine)).flatMap (joinFavorites f.favoritesOf rows)).filter
    fun a => (f.normalizedNames env).all fun name => (taggedIds env name rows).contains a.id

/-- The outer join with the current version, which one order needs. -/
def joinVersion (field : SortField) (rows : List Row) (a : GeneratedArtifact) : List JoinedRow :=
  match field with
  | .currentVersionNumber =>
    match (rowsIn rows : List ArtifactVersion).filter fun v => a.currentVersionId = some v.id with
    | [] => [(a, none)]
    | versions => versions.map fun v => (a, some v)
  | _ => [(a, none)]

/-- The query with its order. -/
def sortedRows (env : Env) (engine : SqlEngine) (f : ArtifactFilters) (field : SortField)
    (order : SortOrder) (n : ℕ) (rows : List Row) : List JoinedRow :=
  engine.orderBy n (engine.rowLe field order)
    ((matchingRows env engine f rows).flatMap (joinVersion field rows))

/-- `scalars().unique()`: an artifact that has come already is left out. -/
def uniqueFrom (seen : List UUID) : List GeneratedArtifact → List GeneratedArtifact
  | [] => []
  | a :: rest => if a.id ∈ seen then uniqueFrom seen rest else a :: uniqueFrom (a.id :: seen) rest

/-- A statement that reads several tables. -/
def snapshot : Db (List Row) := Prog.selectWhere fun _ => true

namespace ArtifactTagRepository

/-- The page, which the `n`-th query returns, and the number of artifacts. -/
def listArtifactsFiltered (env : Env) (engine : SqlEngine) (f : ArtifactFilters) (field : SortField)
    (order : SortOrder) (limit offset n : ℕ) : Db (List GeneratedArtifact × ℕ) := do
  let total := (matchingRows env engine f (← snapshot)).length
  let sorted := sortedRows env engine f field order n (← snapshot)
  return (uniqueFrom [] (((sorted.drop offset).take limit).map Prod.fst), total)

end ArtifactTagRepository

end DevOps
