import DevOpsAssistant.Repositories.Usage

/-!
# Quotas

`UsageQuotaService`: the tokens and requests of a window are compared with the limits of the
organization, or of the user, before a language model is called, and the call is recorded after it.
-/

namespace DevOps

open Txn

variable (env : Env)

def estimateTokens (text : String) : ℕ :=
  let cleaned := env.strip text
  if cleaned = "" then 0 else max 1 (cleaned.length / 4)

namespace UsageQuotaService

/-- One of the four checks of a limit: `used` and what is asked for must not exceed it. -/
def checkLimit (limit : Option ℕ) (used asked : ℕ) (message : String) : Db Unit :=
  match limit with
  | none => pure ()
  | some n => if n < used + asked then throw (QuotaExceededError message) else pure ()

def enforceOrgQuota (organizationId : UUID) (estimatedTokens : ℕ) : Db Unit := do
  match ← OrganizationQuotaRepository.getForOrganization organizationId with
  | none => return ()
  | some quota =>
    if !quota.enforceQuotas then return ()
    else
      let dailyStart ← OrganizationQuotaRepository.dailyWindowStart
      let monthlyStart ← OrganizationQuotaRepository.monthlyWindowStart
      let (dailyTokens, dailyRequests) ←
        UsageRepository.aggregateUsage none (some organizationId) (some dailyStart)
      let (monthlyTokens, monthlyRequests) ←
        UsageRepository.aggregateUsage none (some organizationId) (some monthlyStart)
      checkLimit quota.dailyRequestLimit dailyRequests 1
        "Organization daily request quota exceeded."
      checkLimit quota.monthlyRequestLimit monthlyRequests 1
        "Organization monthly request quota exceeded."
      checkLimit quota.dailyTokenLimit dailyTokens estimatedTokens
        "Organization daily token quota exceeded."
      checkLimit quota.monthlyTokenLimit monthlyTokens estimatedTokens
        "Organization monthly token quota exceeded."

/-- The check of a personal limit in the window that starts at `start`. -/
def enforcePersonal (userId : UUID) (limit : Option ℕ) (start : Time) (estimatedTokens : ℕ)
    (message : String) : Db Unit := do
  match limit with
  | none => return ()
  | some n =>
    let (tokens, _) ← UsageRepository.aggregateUsage (some userId) none (some start)
    checkLimit (some n) tokens estimatedTokens message

def enforceQuotas (userId : UUID) (organizationId : Option UUID) (estimatedTokens : ℕ) :
    Db Unit := do
  match organizationId with
  | some o => enforceOrgQuota o estimatedTokens
  | none =>
    let s := env.settings
    if !s.usageEnforcePersonalQuotas then return ()
    else if s.usageDefaultDailyTokenLimit.isNone && s.usageDefaultMonthlyTokenLimit.isNone then
      return ()
    else
      let dailyStart ← OrganizationQuotaRepository.dailyWindowStart
      let monthlyStart ← OrganizationQuotaRepository.monthlyWindowStart
      enforcePersonal userId s.usageDefaultDailyTokenLimit dailyStart estimatedTokens
        "Personal daily token quota exceeded."
      enforcePersonal userId s.usageDefaultMonthlyTokenLimit monthlyStart estimatedTokens
        "Personal monthly token quota exceeded."

def recordLlmUsage (u : LlmUsage) : Db Unit := do
  let _ ← UsageRepository.recordEvent u

end UsageQuotaService

end DevOps
