import DevOpsAssistant.Repositories.Organizations
import DevOpsAssistant.Utils.Sanitization

/-!
# Repositories of background tasks and analyses

* `refresh`, `SessionObject`: the objects of a session and the rows they were loaded from.
* `TaskRepository`: background tasks, looked up by id or by idempotency key.
* `ArtifactRepository`: the analyses a task works on.
-/

namespace DevOps

open Txn

/-! ## Objects of a session -/

section Objects

variable {T α : Type} [Entity T]

/-- `session.refresh`: the row is read anew. -/
def refresh (id : UUID) : Db T := do
  match ← scalarOneOrNone (← selectOf fun t : T => Entity.id t = id) with
  | none => throw (.other "InvalidRequestError")
  | some t => return t

/-- An object of a session: the row as it was loaded, and its attributes now. -/
structure SessionObject (T : Type) where
  loaded : T
  current : T

/-- An object that has not been changed since it was loaded. -/
def SessionObject.clean (t : T) : SessionObject T := ⟨t, t⟩

/-- The outcome of a statement, for an exception handler that follows it. -/
def attempt (p : Db α) : Db (Except Exc α) :=
  tryCatch (do return .ok (← p)) fun e => pure (.error e)

end Objects

/-! ## Background tasks -/

/-- The statuses a task does not leave. -/
def TaskStatus.terminal : TaskStatus → Bool
  | .succeeded | .failed | .cancelled => true
  | .queued | .running => false

/-- The task `id`. -/
def taskIs (id : UUID) (t : BackgroundTask) : Bool := Entity.id t = id

/-- A task of the user `u` and the type `taskType` with the idempotency key `key`. -/
def keyedBy (u : UUID) (taskType key : String) (t : BackgroundTask) : Bool :=
  t.userId = u && t.taskType = taskType && t.idempotencyKey = some key

theorem taskIs_eq {id : UUID} {t : BackgroundTask} : taskIs id t = true ↔ t.id = id := decide_eq_true_iff

theorem keyedBy_eq {u : UUID} {taskType key : String} {t : BackgroundTask} :
    keyedBy u taskType key t = true ↔
      t.userId = u ∧ t.taskType = taskType ∧ t.idempotencyKey = some key := by
  simp [keyedBy, and_assoc]

namespace TaskRepository

def create (userId : UUID) (taskType : String) (organizationId : Option UUID)
    (idempotencyKey : Option String) (expiresAt : Option Time) : Db BackgroundTask := do
  let id ← uuid4
  let createdAt ← now
  let task : BackgroundTask :=
    { id, celeryTaskId := none, userId, organizationId, taskType, status := .queued, progress := 0,
      errorCode := none, errorMessage := none, idempotencyKey, createdAt, startedAt := none,
      completedAt := none, expiresAt, cancelledAt := none }
  insertOf (fun _ : BackgroundTask => false) task
  return task

def getById (taskId : UUID) : Db (Option BackgroundTask) := do
  scalarOneOrNone (← selectOf (taskIs taskId))

def getByCeleryTaskId (celeryTaskId : String) : Db (Option BackgroundTask) := do
  scalarOneOrNone (← selectOf fun t : BackgroundTask => t.celeryTaskId = some celeryTaskId)

/-- The latest of the tasks. -/
def latest (tasks : List BackgroundTask) : Option BackgroundTask :=
  (tasks.mergeSort fun a b => b.createdAt ≤ a.createdAt).head?

def getByIdempotencyKey (userId : UUID) (taskType idempotencyKey : String) :
    Db (Option BackgroundTask) := do
  return latest (← selectOf (keyedBy userId taskType idempotencyKey))

/-- A page of the tasks that satisfy `p`, the latest first, and the number of them all. -/
def page (p : BackgroundTask → Bool) (limit offset : ℕ) : Db (List BackgroundTask × ℕ) := do
  let tasks ← selectOf p
  let sorted := tasks.mergeSort fun a b => b.createdAt ≤ a.createdAt
  return ((sorted.drop offset).take limit, tasks.length)

/-- The filters of both lists of tasks. -/
def matching (status : Option TaskStatus) (taskType : Option String) (t : BackgroundTask) : Bool :=
  (match status with
    | none => true
    | some s => t.status = s) &&
  (match taskType with
    | none => true
    | some s => t.taskType = s)

/-- `list_tasks`, without an organization. -/
def listTasks (userId : UUID) (status : Option TaskStatus) (taskType : Option String)
    (limit offset : ℕ) : Db (List BackgroundTask × ℕ) :=
  page (fun t => t.userId = userId && t.organizationId.isNone && matching status taskType t)
    limit offset

def listOrganizationTasks (organizationId : UUID) (status : Option TaskStatus)
    (taskType : Option String) (limit offset : ℕ) : Db (List BackgroundTask × ℕ) :=
  page (fun t => t.organizationId = some organizationId && matching status taskType t) limit offset

/-- The arguments of `update`; the attributes that are `none` stay. -/
structure Changes where
  celeryTaskId : Option String := none
  status : Option TaskStatus := none
  progress : Option ℕ := none
  errorCode : Option String := none
  errorMessage : Option String := none
  startedAt : Option Time := none
  completedAt : Option Time := none
  cancelledAt : Option Time := none

/-- The attributes of `task` after the changes. -/
def Changes.apply (c : Changes) (task : BackgroundTask) : BackgroundTask :=
  { task with
    celeryTaskId := c.celeryTaskId <|> task.celeryTaskId
    status := c.status.getD task.status
    progress := (c.progress.map (min 100)).getD task.progress
    errorCode := c.errorCode <|> task.errorCode
    errorMessage := c.errorMessage <|> task.errorMessage
    startedAt := c.startedAt <|> task.startedAt
    completedAt := c.completedAt <|> task.completedAt
    cancelledAt := c.cancelledAt <|> task.cancelledAt }

/-- The row after the flush of an object that was loaded as `loaded`. -/
def flushedRow (loaded new row : BackgroundTask) : BackgroundTask :=
  { row with
    celeryTaskId := flushed loaded.celeryTaskId new.celeryTaskId row.celeryTaskId
    status := flushed loaded.status new.status row.status
    progress := flushed loaded.progress new.progress row.progress
    errorCode := flushed loaded.errorCode new.errorCode row.errorCode
    errorMessage := flushed loaded.errorMessage new.errorMessage row.errorMessage
    startedAt := flushed loaded.startedAt new.startedAt row.startedAt
    completedAt := flushed loaded.completedAt new.completedAt row.completedAt
    cancelledAt := flushed loaded.cancelledAt new.cancelledAt row.cancelledAt }

/-- The flush of an object; the broker's ids are unique. -/
def flush (loaded new : BackgroundTask) : Db Unit := do
  if new = loaded then return ()
  else if new.celeryTaskId = loaded.celeryTaskId then
    let _ ← updateById loaded.id (flushedRow loaded new) fun _ => rfl
  else
    let _ ← updateUnique (fun t : BackgroundTask => t.celeryTaskId = new.celeryTaskId) loaded.id
      (flushedRow loaded new) fun _ => rfl

/-- `task` is the object as the session holds it. -/
def update (task : BackgroundTask) (c : Changes) : Db BackgroundTask := do
  flush task (c.apply task)
  refresh task.id

/-- The rows that `delete_expired_before` deletes. -/
def expiredBefore (cutoff : Time) (t : BackgroundTask) : Bool :=
  t.createdAt < cutoff && (t.status = .succeeded || t.status = .cancelled)

/-- `delete_expired_before`: the number of rows it has deleted. -/
def deleteExpiredBefore (cutoff : Time) : Db ℕ := do
  let removed ← deleteOf (expiredBefore cutoff)
  return removed.length

end TaskRepository

/-! ## Analyses -/

/-- The analysis `id` of the user `u`. -/
def analysisOf (id u : UUID) (a : Analysis) : Bool := a.id = id && a.userId = u

theorem analysisOf_eq {id u : UUID} {a : Analysis} :
    analysisOf id u a = true ↔ a.id = id ∧ a.userId = u := by
  simp [analysisOf]

namespace ArtifactRepository

def createAnalysis (userId : UUID) (organizationId : Option UUID) (analysisType : AnalysisType)
    (inputPreview : String) (status : AnalysisStatus) (taskId : Option String) : Db Analysis := do
  let id ← uuid4
  let analysis : Analysis :=
    ⟨id, userId, organizationId, analysisType, inputPreview, status, taskId⟩
  insertOf (fun _ : Analysis => false) analysis
  return analysis

def getAnalysisByTaskId (taskId : String) : Db (Option Analysis) := do
  scalarOneOrNone (← selectOf fun a : Analysis => a.taskId = some taskId)

def getAnalysisForUser (analysisId userId : UUID) : Db (Option Analysis) := do
  scalarOneOrNone (← selectOf (analysisOf analysisId userId))

/-- The row after the flush of an analysis that was loaded as `loaded`. -/
def flushedRow (loaded new row : Analysis) : Analysis :=
  { row with
    organizationId := flushed loaded.organizationId new.organizationId row.organizationId
    status := flushed loaded.status new.status row.status
    taskId := flushed loaded.taskId new.taskId row.taskId }

def updateAnalysis (analysis : SessionObject Analysis) (status : AnalysisStatus) (taskId : Option String) :
    Db Analysis := do
  let new := { analysis.current with status, taskId := taskId <|> analysis.current.taskId }
  if new = analysis.loaded then refresh analysis.loaded.id
  else
    let _ ← updateById analysis.loaded.id (flushedRow analysis.loaded new) fun _ => rfl
    refresh analysis.loaded.id

end ArtifactRepository

end DevOps
