import DevOpsAssistant.Repositories.Organizations
import Mathlib.Algebra.GroupWithZero.Nat

/-!
# Repositories of usage and providers

* `UsageRepository`: metered calls, and their totals in a window.
* `OrganizationQuotaRepository`: the limits of organizations, and where the windows start.
* `ProviderConfigRepository`, `ProviderRoutingRepository`: the settings of providers.
-/

namespace DevOps

open Txn

/-! ## Usage -/

/-- The filters of `aggregate_usage`. -/
def usageOf (userId organizationId : Option UUID) (since : Option Time) (e : UsageEvent) : Bool :=
  (match userId with
    | none => true
    | some u => e.userId = u) &&
  (match organizationId with
    | none => true
    | some o => e.organizationId = some o) &&
  (match since with
    | none => true
    | some t => t ≤ e.createdAt)

namespace UsageRepository

def recordEvent (u : LlmUsage) : Db UsageEvent := do
  let id ← uuid4
  let createdAt ← now
  let event : UsageEvent :=
    ⟨id, u.userId, u.organizationId, u.operation, u.provider, u.model, u.inputTokens,
      u.outputTokens, u.inputTokens + u.outputTokens, u.isEstimated, createdAt⟩
  insertOf (fun _ : UsageEvent => false) event
  return event

/-- The tokens and the number of the events. -/
def aggregateUsage (userId organizationId : Option UUID) (since : Option Time) : Db (ℕ × ℕ) := do
  let events ← selectOf (usageOf userId organizationId since)
  return ((events.map (·.totalTokens)).sum, events.length)

end UsageRepository

/-! ## Quotas -/

namespace OrganizationQuotaRepository

def getForOrganization (organizationId : UUID) : Db (Option OrganizationQuota) := do
  scalarOneOrNone (← selectOf fun q : OrganizationQuota => q.organizationId = organizationId)

/-- The day of the month of the `z`th day after 1 January 1970, from 1 on. -/
def dayOfMonth (z : ℕ) : ℕ :=
  -- days and years of the era of 400 years, counted from 1 March
  let doe := (z + 719468) % 146097
  let yoe := (doe - doe / 1460 + doe / 36524 - doe / 146096) / 365
  let doy := doe - (365 * yoe + yoe / 4 - yoe / 100)
  let mp := (5 * doy + 2) / 153
  doy - (153 * mp + 2) / 5 + 1

/-- `replace(hour=0, minute=0, second=0, microsecond=0)`. -/
def startOfDay (t : Time) : Time := t - t % days 1

def dailyWindowStart : Db Time := do
  let t ← now
  return startOfDay t

def monthlyWindowStart : Db Time := do
  let t ← now
  return startOfDay t - days (dayOfMonth (t / days 1) - 1)

/-- 1 January and 29 February 2024 are the first and the last day of a month. -/
example : dayOfMonth 19723 = 1 ∧ dayOfMonth 19782 = 29 ∧ dayOfMonth 19783 = 1 := by decide

end OrganizationQuotaRepository

/-! ## Providers -/

namespace ProviderConfigRepository

def getConfig (providerName : String) (organizationId : Option UUID) :
    Db (Option ProviderConfig) := do
  scalarOneOrNone (← selectOf fun c : ProviderConfig =>
    c.organizationId = organizationId && c.providerName = providerName)

/-- The other arguments of `upsert_config`. -/
structure ConfigFields where
  enabled : Option Bool := none
  defaultModel : Option String := none
  timeoutSeconds : Option ℕ := none
  maxRetries : Option ℕ := none
  priority : Option ℕ := none
  maxOutputTokens : Option ℕ := none
  secretEnvKey : Option String := none
  baseUrlEnvKey : Option String := none
  modelEnvKey : Option String := none

/-- `value or default`. -/
def orDefault (value : Option ℕ) (default : ℕ) : ℕ :=
  match value with
  | none | some 0 => default
  | some n => n

/-- The row after the flush of the fields to an object that was loaded as `loaded`. -/
def ConfigFields.flush (fields : ConfigFields) (loaded : ProviderConfig) (updatedAt : Time)
    (row : ProviderConfig) : ProviderConfig :=
  { row with
    enabled := flushed loaded.enabled (fields.enabled.getD loaded.enabled) row.enabled
    defaultModel :=
      flushed loaded.defaultModel (fields.defaultModel.getD loaded.defaultModel) row.defaultModel
    timeoutSeconds :=
      flushed loaded.timeoutSeconds (fields.timeoutSeconds.getD loaded.timeoutSeconds)
        row.timeoutSeconds
    maxRetries := flushed loaded.maxRetries (fields.maxRetries.getD loaded.maxRetries) row.maxRetries
    priority := flushed loaded.priority (fields.priority.getD loaded.priority) row.priority
    maxOutputTokens :=
      flushed loaded.maxOutputTokens (fields.maxOutputTokens.getD loaded.maxOutputTokens)
        row.maxOutputTokens
    secretEnvKey :=
      flushed loaded.secretEnvKey (fields.secretEnvKey.getD loaded.secretEnvKey) row.secretEnvKey
    baseUrlEnvKey :=
      flushed loaded.baseUrlEnvKey (fields.baseUrlEnvKey <|> loaded.baseUrlEnvKey) row.baseUrlEnvKey
    modelEnvKey :=
      flushed loaded.modelEnvKey (fields.modelEnvKey <|> loaded.modelEnvKey) row.modelEnvKey
    updatedAt }

/-- `uq_provider_config_org_provider`: rows without an organization are all different. -/
def sameConfig (config c : ProviderConfig) : Bool :=
  config.organizationId.isSome && c.organizationId = config.organizationId
    && c.providerName = config.providerName

def upsertConfig (organizationId : Option UUID) (providerName : String) (fields : ConfigFields) :
    Db ProviderConfig := do
  match ← getConfig providerName organizationId with
  | none =>
    match fields.defaultModel, fields.secretEnvKey with
    | some defaultModel, some secretEnvKey =>
      let id ← uuid4
      let createdAt ← now
      let updatedAt ← now
      let config : ProviderConfig :=
        { id, organizationId, providerName, enabled := fields.enabled.getD true, defaultModel
          timeoutSeconds := orDefault fields.timeoutSeconds 60
          maxRetries := orDefault fields.maxRetries 3
          priority := orDefault fields.priority 100
          maxOutputTokens := orDefault fields.maxOutputTokens 4096
          secretEnvKey, baseUrlEnvKey := fields.baseUrlEnvKey, modelEnvKey := fields.modelEnvKey
          createdAt, updatedAt }
      insertOf (sameConfig config) config
      return config
    | _, _ => throw (.other "ValueError")
  | some config =>
    let updatedAt ← now
    updateById config.id (fields.flush config updatedAt) fun _ => rfl

end ProviderConfigRepository

namespace ProviderRoutingRepository

def getPolicy (operation : LLMOperation) (organizationId : Option UUID) :
    Db (Option ProviderRoutingPolicy) := do
  scalarOneOrNone (← selectOf fun p : ProviderRoutingPolicy =>
    p.organizationId = organizationId && p.operation = operation)

/-- The row after the flush of the fields to an object that was loaded as `loaded`. -/
def flushPolicy (primaryProvider : Option String) (fallbackProviders : Option (List String))
    (loaded : ProviderRoutingPolicy) (updatedAt : Time) (row : ProviderRoutingPolicy) :
    ProviderRoutingPolicy :=
  { row with
    primaryProvider :=
      flushed loaded.primaryProvider (primaryProvider.getD loaded.primaryProvider)
        row.primaryProvider
    fallbackProviders :=
      flushed loaded.fallbackProviders (fallbackProviders.getD loaded.fallbackProviders)
        row.fallbackProviders
    updatedAt }

/-- `uq_provider_routing_org_operation`: rows without an organization are all different. -/
def samePolicy (policy p : ProviderRoutingPolicy) : Bool :=
  policy.organizationId.isSome && p.organizationId = policy.organizationId
    && p.operation = policy.operation

def upsertPolicy (organizationId : Option UUID) (operation : LLMOperation)
    (primaryProvider : Option String) (fallbackProviders : Option (List String)) :
    Db ProviderRoutingPolicy := do
  match ← getPolicy operation organizationId with
  | none =>
    match primaryProvider with
    | none => throw (.other "ValueError")
    | some primaryProvider =>
      let id ← uuid4
      let createdAt ← now
      let updatedAt ← now
      let policy : ProviderRoutingPolicy :=
        ⟨id, organizationId, operation, primaryProvider, fallbackProviders.getD [], createdAt,
          updatedAt⟩
      insertOf (samePolicy policy) policy
      return policy
  | some policy =>
    let updatedAt ← now
    updateById policy.id (flushPolicy primaryProvider fallbackProviders policy updatedAt) fun _ => rfl

end ProviderRoutingRepository

end DevOps
