import DevOpsAssistant.Repositories.Work
import DevOpsAssistant.Services.Audit
import DevOpsAssistant.Services.OrganizationAuthService
import DevOpsAssistant.Services.OrganizationService

/-!
# Background tasks

`TaskService`: tasks are created, shown and cancelled by users; workers mark them as running, succeeded
or failed.
-/

namespace DevOps

open Txn

variable (env : Env)

def TASK_TYPE_LOG_ANALYSIS : String := "log_analysis"

/-- `TaskSummaryResponse`. -/
structure TaskSummaryResponse where
  id : UUID
  taskType : String
  status : TaskStatus
  progress : ℕ
  organizationId : Option UUID
  errorCode : Option String
  errorMessage : Option String
  createdAt : Time
  startedAt : Option Time
  completedAt : Option Time
  cancelledAt : Option Time

/-- `TaskDetailResponse`. -/
structure TaskDetailResponse extends TaskSummaryResponse where
  celeryTaskId : Option String

/-- `TaskCancelResponse`. -/
structure TaskCancelResponse where
  id : UUID
  status : TaskStatus
  cancelledAt : Option Time

/-- `_to_summary`. -/
def TaskSummaryResponse.ofTask (t : BackgroundTask) : TaskSummaryResponse :=
  ⟨t.id, t.taskType, t.status, t.progress, t.organizationId, t.errorCode, t.errorMessage, t.createdAt,
    t.startedAt, t.completedAt, t.cancelledAt⟩

/-- `_to_detail`. -/
def TaskDetailResponse.ofTask (t : BackgroundTask) : TaskDetailResponse :=
  ⟨.ofTask t, t.celeryTaskId⟩

namespace TaskService

/-! ## Permissions -/

def requireView (user : User) (task : BackgroundTask) : Db Unit := do
  match task.organizationId with
  | none => if task.userId ≠ user.id then throw (NotFoundError "Task not found") else return ()
  | some o =>
    let _ ← OrganizationAuthService.requireMembership o user.id

def requireCancel (user : User) (task : BackgroundTask) : Db Unit := do
  match task.organizationId with
  | none => if task.userId ≠ user.id then throw (NotFoundError "Task not found") else return ()
  | some o =>
    let (_, membership) ← OrganizationAuthService.requireMembership o user.id
    if membership.role = .viewer then
      throw (ForbiddenError "Insufficient organization permissions")
    else if task.userId = user.id then return ()
    else
      let _ ← OrganizationAuthService.requirePermission o user.id .taskCancel

/-- The permission to create in an organization, where there is one. -/
def requireCreate (user : User) (organizationId : Option UUID) : Db Unit := do
  match organizationId with
  | none => return ()
  | some o =>
    let _ ← OrganizationAuthService.requirePermission o user.id .resourceCreate

/-! ## Creation -/

def retentionCutoff : Db Time := do
  let t ← now
  return t - days env.settings.backgroundTaskRetentionDays

def defaultExpiresAt : Db Time := do
  let t ← now
  return t + days env.settings.backgroundTaskRetentionDays

def getExistingIdempotentTask (user : User) (taskType : String) (idempotencyKey : Option String) :
    Db (Option BackgroundTask) := do
  match idempotencyKey.filter (· ≠ "") with
  | none => return none
  | some key =>
    match ← TaskRepository.getByIdempotencyKey user.id taskType key with
    | none => return none
    | some existing =>
      match existing.completedAt with
      | none => return some existing
      | some completedAt =>
        if existing.status.terminal then
          let cutoff ← retentionCutoff env
          if completedAt < cutoff then return none else return some existing
        else return some existing

def createTask (user : User) (taskType : String) (organizationId : Option UUID)
    (idempotencyKey : Option String) : Db BackgroundTask := do
  requireCreate user organizationId
  match ← getExistingIdempotentTask env user taskType idempotencyKey with
  | some existing => return existing
  | none =>
    let expiresAt ← defaultExpiresAt env
    let task ← TaskRepository.create user.id taskType organizationId idempotencyKey (some expiresAt)
    AuditService.recordEvent "task.created" user.id organizationId "background_task" task.id
    return task

def attachCeleryTaskId (task : BackgroundTask) (celeryTaskId : String) : Db BackgroundTask :=
  TaskRepository.update task { celeryTaskId := some celeryTaskId }

/-! ## Views -/

def getTask (user : User) (taskId : UUID) : Db TaskDetailResponse := do
  match ← TaskRepository.getById taskId with
  | none => throw (NotFoundError "Task not found")
  | some task =>
    requireView user task
    return .ofTask task

/-- `resolve_task_identifier`, of an identifier that is no UUID. -/
def resolveTaskIdentifier (user : User) (identifier : String) : Db TaskDetailResponse := do
  match ← TaskRepository.getByCeleryTaskId identifier with
  | none => throw (NotFoundError "Task not found")
  | some task =>
    requireView user task
    return .ofTask task

def listTasks (user : User) (organizationId : Option UUID) (status : Option TaskStatus)
    (taskType : Option String) (limit offset : ℕ) : Db (Page TaskSummaryResponse) := do
  let (items, total) ← match organizationId with
    | some o => do
      let _ ← OrganizationAuthService.requireMembership o user.id
      TaskRepository.listOrganizationTasks o status taskType limit offset
    | none => TaskRepository.listTasks user.id status taskType limit offset
  return ⟨items.map .ofTask, total⟩

/-! ## Status -/

def cancelTask (user : User) (taskId : UUID) : Db TaskCancelResponse := do
  match ← TaskRepository.getById taskId with
  | none => throw (NotFoundError "Task not found")
  | some task =>
    requireCancel user task
    if task.status.terminal then return ⟨task.id, task.status, task.cancelledAt⟩
    else
      let t ← now
      let updated ← TaskRepository.update task
        { status := some .cancelled, cancelledAt := some t, completedAt := some t }
      AuditService.recordEvent "task.cancelled" user.id updated.organizationId "background_task"
        updated.id
      return ⟨updated.id, updated.status, updated.cancelledAt⟩

/-- The task `taskId`: a session that holds it as `held` sees the attributes it has loaded. -/
def loadTask (taskId : UUID) (held : List BackgroundTask) : Db (Option BackgroundTask) := do
  return (← TaskRepository.getById taskId).map (identityMapped held)

/-- The object the session holds afterwards, if it held one or has found one. -/
def markRunning (taskId : UUID) (progress : ℕ) (held : List BackgroundTask) :
    Db (List BackgroundTask) := do
  match ← loadTask taskId held with
  | none => return held
  | some task =>
    if task.status.terminal then return held
    else
      let startedAt ← match task.startedAt with
        | some t => pure t
        | none => now
      return [← TaskRepository.update task
        { status := some .running, progress := some progress, startedAt := some startedAt }]

/-- `mark_succeeded`, with the default progress. -/
def markSucceeded (taskId : UUID) (held : List BackgroundTask) : Db Unit := do
  match ← loadTask taskId held with
  | none => return ()
  | some task =>
    if task.status = .cancelled then return ()
    else
      let t ← now
      let _ ← TaskRepository.update task
        { status := some .succeeded, progress := some 100, completedAt := some t }

def markFailed (taskId : UUID) (errorCode errorMessage : String) (held : List BackgroundTask) :
    Db Unit := do
  match ← loadTask taskId held with
  | none => return ()
  | some task =>
    if task.status = .cancelled then return ()
    else
      let t ← now
      let _ ← TaskRepository.update task
        { status := some .failed, errorCode := some errorCode,
          errorMessage := some (firstChars 500 errorMessage), completedAt := some t }

/-! ## Retention -/

def cleanupExpiredTasks : Db ℕ := do
  let cutoff ← retentionCutoff env
  TaskRepository.deleteExpiredBefore cutoff

end TaskService

end DevOps
