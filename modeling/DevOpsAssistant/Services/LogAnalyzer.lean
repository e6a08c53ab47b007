import DevOpsAssistant.Services.ProviderService
import DevOpsAssistant.Services.TaskService

/-!
# Log analysis

* `analyzeLogContent`: one call of a language model, without the gateway.
* `LogAnalyzerService`: logs are analysed at once, or by a worker that is sent a message.

What the analysis says is left out: a result is `()`.
-/

namespace DevOps

open Txn

variable (env : Env)

def LOG_ANALYSIS_SYSTEM_PROMPT : String :=
  "You analyze operational logs for DevOps triage.\n" ++
  "Return ONLY valid JSON with keys:\n" ++
  "summary, severity, detected_errors, possible_causes, recommended_actions,\n" ++
  "diagnostic_commands, confidence.\n\n" ++
  "severity must be one of: low, medium, high, critical.\n" ++
  "confidence must be a number between 0 and 1.\n" ++
  "diagnostic_commands are suggestions only and must not be described as executed.\n"

/-- The prompt about sanitized logs. -/
def logPrompt (cleaned : String) : String :=
  "Analyze the following logs. Use the static signals as hints.\nStatic signals: " ++
    env.staticLogSignals cleaned ++ "\n\nLOGS:\n" ++ firstChars 120000 cleaned

/-- `LogAnalyzeResult.model_validate(_parse_llm_json(raw))`. -/
def validateLogResult (raw : String) : Db Unit :=
  if env.parsesLogResult raw then pure () else throw (.other "ValidationError")

/-- The exception every statement raises after a failed flush. -/
def pendingRollback : Exc := .other "PendingRollbackError"

/-- The fallback result stands for any failure. After a failed flush, before the call
(`poisoned`) or in it, the next flush of the session raises. -/
def analyzeLogContent (content providerName : String) (userId : UUID)
    (organizationId : Option UUID) (poisoned : Bool) : Db Unit :=
  tryCatch
    (do
      let cleaned := sanitizeText env content (some 500000)
      let provider ← getLlmProvider env providerName
      let prompt := logPrompt env cleaned
      let call : LLMCall := ⟨provider, prompt, some LOG_ANALYSIS_SYSTEM_PROMPT, 4096⟩
      let raw ← (do orRaise (← Prog.query (Query.generate call)) : Db String)
      validateLogResult env raw
      if poisoned then throw pendingRollback
      else
        UsageQuotaService.recordLlmUsage
          ⟨userId, organizationId, LLMOperation.logAnalysis.value, provider, none,
            max 1 (prompt.length / 4), max 1 (raw.length / 4), true⟩)
    fun e => if poisoned || e.poisons then throw pendingRollback else pure ()

namespace LogAnalyzerService

/-- The call of the gateway about sanitized logs. -/
def generate (user : User) (cleaned providerName : String) (organizationId : Option UUID) :
    Db Unit := do
  let (raw, _) ← LLMGateway.generate env user .logAnalysis organizationId (logPrompt env cleaned)
    (some LOG_ANALYSIS_SYSTEM_PROMPT) (some providerName) none
  validateLogResult env raw

/-- `AsyncTaskResponse`. -/
structure AsyncTaskResponse where
  taskId : String
  status : TaskStatus
  analysisId : UUID
  celeryTaskId : Option String
  organizationId : Option UUID

/-- `_async_response`. -/
def asyncResponse (task : BackgroundTask) (analysisId : UUID) : AsyncTaskResponse :=
  ⟨toString task.id, task.status, analysisId, task.celeryTaskId, task.organizationId⟩

/-- `analyze_logs_task.delay`; the id of the message. -/
def delay (m : CeleryMessage) : Db String := do
  orRaise (← Prog.query (Query.publish m))

/-- The rest of `enqueue_async`, for a task without an analysis. -/
def publish (user : User) (cleaned providerName : String) (task : BackgroundTask) :
    Db AsyncTaskResponse := do
  let analysis ← ArtifactRepository.createAnalysis user.id task.organizationId .log
    (previewText env cleaned) .pending (some (toString task.id))
  AuditService.recordEvent "log_analysis.async.created" user.id task.organizationId
    "background_task" task.id
  let celeryTaskId ← delay ⟨task.id, analysis.id, user.id, cleaned, providerName⟩
  let task ← TaskService.attachCeleryTaskId task celeryTaskId
  let analysis ← ArtifactRepository.updateAnalysis (.clean analysis) .running
    (some (toString task.id))
  Prog.commitWork
  return asyncResponse task analysis.id

def enqueueAsync (user : User) (content providerName : String) (organizationId : Option UUID)
    (idempotencyKey : Option String) : Db AsyncTaskResponse := do
  let cleaned := sanitizeText env content (some 500000)
  let task ← TaskService.createTask env user TASK_TYPE_LOG_ANALYSIS organizationId idempotencyKey
  match ← ArtifactRepository.getAnalysisByTaskId (toString task.id) with
  | some existing => return asyncResponse task existing.id
  | none => publish env user cleaned providerName task

end LogAnalyzerService

end DevOps
