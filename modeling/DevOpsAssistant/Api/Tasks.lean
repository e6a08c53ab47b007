import DevOpsAssistant.Api.Accounts
import DevOpsAssistant.Txn.Recorded
import DevOpsAssistant.Workers.Tasks

/-!
# The routes of background tasks

* `TaskRequest`: the requests to `/tasks`.
* `JobRequest`: what starts a session on background tasks: a request to `/tasks` or to
  `/logs/analyze/async`, or a message delivered to a worker.
-/

namespace DevOps

open Txn

variable (env : Env)

/-- The requests to `/tasks`; `access` is the bearer token. -/
inductive TaskRequest where
  | list (access : RawToken) (organizationId : Option UUID) (status : Option TaskStatus)
      (taskType : Option String) (limit offset : ℕ)
  | get (access : RawToken) (taskId : String)
  | cancel (access : RawToken) (taskId : UUID)

/-- The bodies of successful responses. -/
inductive TaskResponseBody where
  | tasks (p : Page TaskSummaryResponse)
  | task (t : TaskDetailResponse)
  | cancelled (r : TaskCancelResponse)

namespace TaskRequest

/-- The route of a request. -/
def route : TaskRequest → Db TaskResponseBody
  | list access organizationId status taskType limit offset => do
    let user ← getCurrentUser env access
    return .tasks (← TaskService.listTasks user organizationId status taskType limit offset)
  | get access taskId => do
    let user ← getCurrentUser env access
    match taskId.toNat? with
    | none => return .task (← TaskService.resolveTaskIdentifier user taskId)
    | some id => return .task (← TaskService.getTask user id)
  | cancel access taskId => do
    let user ← getCurrentUser env access
    return .cancelled (← TaskService.cancelTask user taskId)

/-- The program of a request. -/
def serve (r : TaskRequest) : Db TaskResponseBody := getDb (r.route env)

end TaskRequest

/-- What starts a session on background tasks. -/
inductive JobRequest where
  | task (r : TaskRequest)
  | enqueue (access : RawToken) (content provider : String) (organizationId : Option UUID)
      (idempotencyKey : Option String)
  | analyzeLogs (m : CeleryMessage)

/-- What such a session returns. -/
inductive JobResult where
  | task (b : TaskResponseBody)
  | enqueued (r : LogAnalyzerService.AsyncTaskResponse)
  | analyzed (r : WorkerResult)

namespace JobRequest

/-- The program of a session. A worker opens its session itself. -/
def serve : JobRequest → Db JobResult
  | task r => do return .task (← r.serve env)
  | enqueue access content provider organizationId idempotencyKey => getDb do
    let user ← getCurrentUser env access
    return .enqueued (← LogAnalyzerService.enqueueAsync env user content provider organizationId
      idempotencyKey)
  | analyzeLogs m => do return .analyzed (← analyzeLogsAsync env m)

end JobRequest

/-- The interleaved sessions on background tasks. -/
abbrev JobConfig := Config Row Answer Exc JobResult JobRequest World

/-- The interleaved sessions on background tasks, with what they have been told. -/
abbrev JobRun := Recorded Row Answer Exc JobResult JobRequest World

/-- A session on background tasks. -/
abbrev JobTx := Tx Row Answer Exc JobResult JobRequest

end DevOps
