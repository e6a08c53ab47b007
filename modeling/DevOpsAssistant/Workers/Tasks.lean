import DevOpsAssistant.Services.LogAnalyzer

/-!
# The Celery worker

* `analyzeLogsAsync`: the run of a worker for one message. The session of a run commits when the task is
  running, and again when it is over.
* `cleanupBackgroundTasks`: the run that deletes old tasks.
-/

namespace DevOps

open Txn

variable (env : Env)

/-- What a run returns. -/
inductive WorkerResult where
  | payload
  | analysisNotFound
  | taskNotFound
  | timedOut
  | failed
deriving DecidableEq

/-- The run ends before it has begun: the analysis or the task is missing. -/
def notFound (taskId : UUID) (errorMessage : String) (result : WorkerResult) : Db WorkerResult := do
  TaskService.markFailed taskId "NOT_FOUND" errorMessage []
  Prog.commitWork
  return result

/-- The analysis of the logs: through the gateway, and without it if that fails. -/
def analyzeLogs (m : CeleryMessage) (organizationId : Option UUID) : Db Unit := do
  let provider := m.provider.getD "gemini"
  let cleaned := sanitizeText env m.content (some 500000)
  match ← UserRepository.getById m.userId with
  | none => analyzeLogContent env cleaned provider m.userId organizationId false
  | some user =>
    tryCatch (LogAnalyzerService.generate env user cleaned provider organizationId) fun e =>
      analyzeLogContent env cleaned provider m.userId organizationId e.poisons

/-- The handlers of a run that holds the analysis and the task. -/
def onFailure (m : CeleryMessage) (analysis : Analysis) (held : List BackgroundTask) (e : Exc) :
    Db WorkerResult := do
  if e.poisons then throw pendingRollback
  else
    let (errorCode, errorMessage, result) := match e with
      | .softTimeLimitExceeded => ("TIMEOUT", "Analysis timed out", WorkerResult.timedOut)
      | _ => ("ANALYSIS_FAILED", "Analysis failed", WorkerResult.failed)
    let _ ← ArtifactRepository.updateAnalysis (.clean analysis) .failed none
    TaskService.markFailed m.backgroundTaskId errorCode errorMessage held
    Prog.commitWork
    return result

/-- The `try` statement of a run. -/
def finishRun (m : CeleryMessage) (organizationId : Option UUID) (analysis : Analysis)
    (held : List BackgroundTask) : Db WorkerResult := do
  let completed ← attempt (do
    analyzeLogs env m organizationId
    ArtifactRepository.updateAnalysis (.clean analysis) .completed none)
  match completed with
  | .error e => onFailure m analysis held e
  | .ok analysis =>
    match ← attempt (TaskService.markSucceeded m.backgroundTaskId held) with
    | .error e => onFailure m analysis held e
    | .ok _ =>
      Prog.commitWork
      return .payload

def analyzeLogsAsync (m : CeleryMessage) : Db WorkerResult := do
  match ← ArtifactRepository.getAnalysisForUser m.analysisId m.userId with
  | none => notFound m.backgroundTaskId "Analysis not found" .analysisNotFound
  | some analysis =>
    match ← TaskRepository.getById m.backgroundTaskId with
    | none => notFound m.backgroundTaskId "Background task not found" .taskNotFound
    | some task =>
      -- the organization of the task is flushed with the status
      let rescoped := { analysis with organizationId := task.organizationId }
      let held ← TaskService.markRunning m.backgroundTaskId 10 [task]
      let analysis ← ArtifactRepository.updateAnalysis ⟨analysis, rescoped⟩ .running none
      Prog.commitWork
      finishRun env m task.organizationId analysis held

def cleanupBackgroundTasks : Db ℕ := do
  let deleted ← TaskService.cleanupExpiredTasks env
  Prog.commitWork
  return deleted

end DevOps
