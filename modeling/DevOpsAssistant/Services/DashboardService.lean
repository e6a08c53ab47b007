import DevOpsAssistant.Repositories.ArtifactListing
import DevOpsAssistant.Reviews.Findings
import DevOpsAssistant.Services.OrganizationAuthService

/-!
# The dashboard

* `DashboardColumns`: columns that only the dashboard reads; `DashboardLibrary`: the engine and
  library functions it calls.
* `resultFindings`, `countFinding`: the findings of a review in its result.
* `DashboardService`: the summary, the findings, the tasks and the activity of a user or an
  organization.
-/

namespace DevOps

open Txn

/-! ## What is read -/

/-- Columns of conversations and analyses, by the id of the row; a result is JSON. -/
structure DashboardColumns where
  conversationCreatedAt : UUID → Time
  conversationUpdatedAt : UUID → Time
  analysisCreatedAt : UUID → Time
  analysisResult : UUID → PyValue
  isJson : ∀ id, (analysisResult id).isJson = true

/-- The engine and the library functions. `newestFirst` is `ORDER BY … DESC`, which decides itself
how rows with equal times stand. -/
structure DashboardLibrary where
  newestFirst : {T : Type} → (T → Time) → List T → List T
  newestFirst_perm : ∀ {T : Type} (time : T → Time) rows, (newestFirst time rows).Perm rows
  newestFirst_pairwise : ∀ {T : Type} (time : T → Time) rows,
    (newestFirst time rows).Pairwise fun a b => time b ≤ time a
  /-- `str`, of an identifier. -/
  uuidText : UUID → String
  /-- `str`, of a value of JSON. -/
  str : PyValue → String

/-- `TimeRange`. -/
inductive TimeRange where
  | day
  | week
  | month
deriving DecidableEq

def TIME_RANGES : TimeRange → Time
  | .day => days 1
  | .week => days 7
  | .month => days 30

def SEVERITIES : List Severity := [.critical, .high, .medium, .low]

def AnalysisType.value : AnalysisType → String
  | .log => "log"
  | .review => "review"

def AnalysisStatus.value : AnalysisStatus → String
  | .pending => "pending"
  | .running => "running"
  | .completed => "completed"
  | .failed => "failed"

def TaskStatus.value : TaskStatus → String
  | .queued => "queued"
  | .running => "running"
  | .succeeded => "succeeded"
  | .failed => "failed"
  | .cancelled => "cancelled"

/-! ## What is returned -/

structure CountSummary where
  total : ℕ
  recent : ℕ

structure ArtifactCountSummary where
  total : ℕ
  favorites : ℕ
  archived : ℕ

structure TaskCountSummary where
  queued : ℕ
  running : ℕ
  succeeded : ℕ
  failed : ℕ

structure FindingCountSummary where
  critical : ℕ
  high : ℕ
  medium : ℕ
  low : ℕ
deriving DecidableEq

structure UsageSummary where
  requestsUsed : ℕ
  requestsLimit : ℕ

structure OrganizationSummary where
  memberCount : ℕ
  activePolicyPacks : ℕ

structure DashboardSummary where
  conversations : CountSummary
  artifacts : ArtifactCountSummary
  tasks : TaskCountSummary
  findings : FindingCountSummary
  usage : UsageSummary
  organization : Option OrganizationSummary

/-- What an item of the activity is about. -/
inductive ActivityType where
  | conversation
  | analysis
  | artifact
  | task
  | policy
  | member
deriving DecidableEq

structure ActivityItem where
  id : UUID
  type : ActivityType
  title : String
  timestamp : Time
  status : Option String
  organizationId : Option UUID
  routeTarget : String
deriving DecidableEq

structure FindingItem where
  analysisId : UUID
  severity : Severity
  title : String
  timestamp : Time
  organizationId : Option UUID

structure DashboardFindings where
  counts : FindingCountSummary
  items : List FindingItem

structure DashboardTasks where
  counts : TaskCountSummary
  items : List ActivityItem

/-- The count of a severity. -/
def FindingCountSummary.count (c : FindingCountSummary) : Severity → ℕ
  | .critical => c.critical
  | .high => c.high
  | .medium => c.medium
  | .low => c.low
  | .info => 0

/-- `counts[severity] += 1`. -/
def FindingCountSummary.increment (c : FindingCountSummary) : Severity → FindingCountSummary
  | .critical => { c with critical := c.critical + 1 }
  | .high => { c with high := c.high + 1 }
  | .medium => { c with medium := c.medium + 1 }
  | .low => { c with low := c.low + 1 }
  | .info => c

/-! ## Findings in results -/

/-- What a loop over a value goes through. -/
def PyValue.iterate : PyValue → Except Exc (List PyValue)
  | .list items => .ok items
  | .dict entries => .ok (entries.map (·.1))
  | .str s => .ok (s.toList.map fun c => .str (String.singleton c))
  | _ => .error (.other "TypeError")

/-- A value that can be a key of a dictionary. -/
def PyValue.hashable : PyValue → Bool
  | .list _ | .dict _ => false
  | _ => true

/-- `(result_json or {}).get("findings", [])`, and the loop over it. -/
def resultFindings (result : PyValue) : Except Exc (List PyValue) :=
  if result.truthy then
    match result with
    | .dict entries =>
      if PyValue.has entries "findings" then (PyValue.get entries "findings").iterate else .ok []
    | _ => .error (.other "AttributeError")
  else .ok []

/-- One finding of an analysis. -/
def countFinding (cols : DashboardColumns) (lib : DashboardLibrary) (analysis : Analysis)
    (found : FindingCountSummary × List FindingItem) (finding : PyValue) :
    Except Exc (FindingCountSummary × List FindingItem) :=
  match finding with
  | .dict entries =>
    let severity := PyValue.get entries "severity"
    if severity.hashable then
      match SEVERITIES.find? fun s => severity.isText s.value with
      | none => .ok found
      | some s =>
        let title := PyValue.get entries "title"
        let item : FindingItem :=
          { analysisId := analysis.id
            severity := s
            title := if title.truthy then lib.str title else "Security finding"
            timestamp := cols.analysisCreatedAt analysis.id
            organizationId := analysis.organizationId }
        .ok (found.1.increment s, if found.2.length < 20 then found.2 ++ [item] else found.2)
    else .error (.other "TypeError")
  | _ => .error (.other "AttributeError")

/-- The findings of one analysis. -/
def countAnalysis (cols : DashboardColumns) (lib : DashboardLibrary)
    (found : FindingCountSummary × List FindingItem) (analysis : Analysis) :
    Except Exc (FindingCountSummary × List FindingItem) := do
  let findings ← resultFindings (cols.analysisResult analysis.id)
  findings.foldlM (countFinding cols lib analysis) found

/-! ## The service -/

namespace DashboardService

variable (cols : DashboardColumns) (lib : DashboardLibrary)

/-- `_authorize`. -/
def authorize (user : User) (organizationId : Option UUID) (audit : Bool) : Db Unit := do
  match organizationId with
  | none => return ()
  | some o =>
    let _ ← OrganizationAuthService.requireMembership o user.id
    let _ ← OrganizationAuthService.requirePermission o user.id
      (if audit then .auditRead else .artifactRead)
    return ()

/-- `_scope`, of the user and the organization of a row. -/
def scope (userId : UUID) (organizationId : Option UUID) (rowUser : UUID)
    (rowOrganization : Option UUID) : Bool :=
  match organizationId with
  | none => decide (rowUser = userId) && rowOrganization.isNone
  | some o => decide (rowOrganization = some o)

/-- `_since`. -/
def since (timeRange : TimeRange) : Db Time := do
  let t ← now
  return t - TIME_RANGES timeRange

/-- `_task_counts`. -/
def taskCounts (userId : UUID) (organizationId : Option UUID) : Db TaskCountSummary := do
  let tasks ← selectOf fun t : BackgroundTask => scope userId organizationId t.userId t.organizationId
  let count := fun status => (tasks.filter fun t => t.status = status).length
  return ⟨count .queued, count .running, count .succeeded, count .failed⟩

/-- `_finding_data`. -/
def findingData (userId : UUID) (organizationId : Option UUID) (since : Time) :
    Db (FindingCountSummary × List FindingItem) := do
  let analyses ← selectOf fun a : Analysis =>
    scope userId organizationId a.userId a.organizationId && decide (a.analysisType = .review) &&
      decide (since ≤ cols.analysisCreatedAt a.id)
  let rows := (lib.newestFirst (fun a => cols.analysisCreatedAt a.id) analyses).take 100
  orRaise (rows.foldlM (countAnalysis cols lib) (⟨0, 0, 0, 0⟩, []))

/-- The outer join of the artifacts with their favorites. -/
def joinAllFavorites (rows : List Row) (a : GeneratedArtifact) :
    List (GeneratedArtifact × Option ArtifactFavorite) :=
  match (rowsIn rows : List ArtifactFavorite).filter fun f => f.artifactId = a.id with
  | [] => [(a, none)]
  | favorites => favorites.map fun f => (a, some f)

/-- `COUNT(DISTINCT generated_artifacts.id)`. -/
def countDistinct (rows : List (GeneratedArtifact × Option ArtifactFavorite)) : ℕ :=
  (rows.map fun r => r.1.id).dedup.length

/-- The counts of artifacts in one query. -/
def artifactCounts (userId : UUID) (organizationId : Option UUID) : Db ArtifactCountSummary := do
  let rows ← snapshot
  let joined := ((rowsIn rows : List GeneratedArtifact).filter fun a =>
    scope userId organizationId a.userId a.organizationId && a.deletedAt.isNone).flatMap
      (joinAllFavorites rows)
  return { total := countDistinct joined
           favorites := countDistinct (joined.filter fun r => r.2.any (·.userId = userId))
           archived := countDistinct (joined.filter fun r => r.1.archivedAt.isSome) }

def summary (user : User) (organizationId : Option UUID) (timeRange : TimeRange) :
    Db DashboardSummary := do
  authorize user organizationId false
  let since ← since timeRange
  let conversations ← selectOf fun c : Conversation =>
    scope user.id organizationId c.userId c.organizationId
  let artifacts ← artifactCounts user.id organizationId
  let usage ← selectOf fun e : UsageEvent =>
    scope user.id organizationId e.userId e.organizationId && decide (since ≤ e.createdAt)
  let (findingCounts, _) ← findingData cols lib user.id organizationId since
  let (organization, requestsLimit) ← match organizationId with
    | none => pure (none, 0)
    | some o => do
      let members ← selectOf fun m : OrganizationMember => decide (m.organizationId = o)
      let packs ← selectOf fun p : PolicyPack =>
        decide (p.organizationId = o) && p.isActive && p.deletedAt.isNone
      let quotas ← selectOf fun q : OrganizationQuota => decide (q.organizationId = o)
      pure (some ⟨members.length, packs.length⟩,
        (quotas.head?.bind (·.monthlyRequestLimit)).getD 0)
  let tasks ← taskCounts user.id organizationId
  return { conversations :=
             ⟨conversations.length,
               (conversations.filter fun c => since ≤ cols.conversationCreatedAt c.id).length⟩
           artifacts := artifacts
           tasks := tasks
           findings := findingCounts
           usage := ⟨usage.length, requestsLimit⟩
           organization := organization }

def findings (user : User) (organizationId : Option UUID) (timeRange : TimeRange) :
    Db DashboardFindings := do
  authorize user organizationId false
  let (counts, items) ← findingData cols lib user.id organizationId (← since timeRange)
  return ⟨counts, items⟩

/-! ### The activity -/

/-- The newest rows of a query, at most twenty, as items. -/
def newestItems {T : Type} [Entity T] (condition : T → Bool) (time : T → Time)
    (item : T → ActivityItem) : Db (List ActivityItem) := do
  let rows ← selectOf condition
  return ((lib.newestFirst time rows).take 20).map item

def taskItem (task : BackgroundTask) : ActivityItem :=
  ⟨task.id, .task, task.taskType, task.createdAt, some task.status.value, task.organizationId,
    "/tasks/" ++ lib.uuidText task.id⟩

def tasks (user : User) (organizationId : Option UUID) (timeRange : TimeRange) :
    Db DashboardTasks := do
  authorize user organizationId false
  let since ← since timeRange
  let items ← newestItems lib
    (fun t : BackgroundTask =>
      scope user.id organizationId t.userId t.organizationId && decide (since ≤ t.createdAt))
    (·.createdAt) (taskItem lib)
  return ⟨← taskCounts user.id organizationId, items⟩

end DashboardService

end DevOps
