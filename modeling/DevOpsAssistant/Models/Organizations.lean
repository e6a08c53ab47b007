import DevOpsAssistant.Models.Accounts

/-!
# Organizations

The tables of organizations: members and roles, invitations, quotas and usage, language-model
providers, policy packs.
-/

namespace DevOps

/-- `OrgRole`. -/
inductive OrgRole where
  | owner
  | admin
  | member
  | viewer
deriving DecidableEq

/-- The row of an organization; `deletedAt` marks a soft delete. -/
structure Organization where
  id : UUID
  name : String
  slug : String
  createdBy : UUID
  createdAt : Time
  updatedAt : Time
  deletedAt : Option Time

/-- A membership. -/
structure OrganizationMember where
  id : UUID
  organizationId : UUID
  userId : UUID
  role : OrgRole
  createdAt : Time
  updatedAt : Time

/-- `InvitationStatus`. -/
inductive InvitationStatus where
  | pending
  | accepted
  | declined
  | revoked
  | expired
deriving DecidableEq

/-- An invitation of an email address to an organization. -/
structure OrganizationInvitation where
  id : UUID
  organizationId : UUID
  email : String
  role : OrgRole
  tokenHash : String
  invitedByUserId : UUID
  status : InvitationStatus
  expiresAt : Time
  acceptedAt : Option Time
  declinedAt : Option Time
  revokedAt : Option Time
  createdAt : Time

/-- The limits of an organization; `none` is no limit. -/
structure OrganizationQuota where
  id : UUID
  organizationId : UUID
  dailyTokenLimit : Option ℕ
  dailyRequestLimit : Option ℕ
  monthlyTokenLimit : Option ℕ
  monthlyRequestLimit : Option ℕ
  enforceQuotas : Bool

/-- One metered call of a language model. -/
structure UsageEvent where
  id : UUID
  userId : UUID
  organizationId : Option UUID
  operation : String
  provider : String
  model : Option String
  inputTokens : ℕ
  outputTokens : ℕ
  totalTokens : ℕ
  isEstimated : Bool
  createdAt : Time

/-- The arguments of `record_llm_usage`. -/
structure LlmUsage where
  userId : UUID
  organizationId : Option UUID
  operation : String
  provider : String
  model : Option String
  inputTokens : ℕ
  outputTokens : ℕ
  isEstimated : Bool
deriving DecidableEq

/-- `LLMOperation`. -/
inductive LLMOperation where
  | chat
  | logAnalysis
  | configurationReview
  | dockerfileGeneration
  | kubernetes
  | pipelineGeneration
  | shellCommand
deriving DecidableEq

/-- The stored value of an operation. -/
def LLMOperation.value : LLMOperation → String
  | .chat => "chat"
  | .logAnalysis => "log_analysis"
  | .configurationReview => "configuration_review"
  | .dockerfileGeneration => "dockerfile_generation"
  | .kubernetes => "kubernetes"
  | .pipelineGeneration => "pipeline_generation"
  | .shellCommand => "shell_command"

/-- The settings of a provider, of an organization or (`organizationId = none`) of the platform. -/
structure ProviderConfig where
  id : UUID
  organizationId : Option UUID
  providerName : String
  enabled : Bool
  defaultModel : String
  timeoutSeconds : ℕ
  maxRetries : ℕ
  priority : ℕ
  maxOutputTokens : ℕ
  secretEnvKey : String
  baseUrlEnvKey : Option String
  modelEnvKey : Option String
  createdAt : Time
  updatedAt : Time

/-- Which providers an operation uses, in which order. -/
structure ProviderRoutingPolicy where
  id : UUID
  organizationId : Option UUID
  operation : LLMOperation
  primaryProvider : String
  fallbackProviders : List String
  createdAt : Time
  updatedAt : Time

/-- A set of rules an organization checks its artifacts against. -/
structure PolicyPack where
  id : UUID
  organizationId : UUID
  name : String
  description : Option String
  isActive : Bool
  version : ℕ
  createdBy : UUID
  createdAt : Time
  updatedAt : Time
  deletedAt : Option Time

/-- `PolicySeverity`. -/
inductive PolicySeverity where
  | low
  | medium
  | high
  | critical
deriving DecidableEq

/-- The configuration of a rule, as its models validate it; a list that the key of the rule does not
have is empty. -/
structure RuleConfiguration where
  registries : List String
  labels : List String
deriving DecidableEq

/-- A rule of a policy pack. -/
structure PolicyRule where
  id : UUID
  policyPackId : UUID
  ruleKey : String
  name : String
  description : String
  resourceType : String
  severity : PolicySeverity
  configurationJson : RuleConfiguration
  remediation : Option String
  isEnabled : Bool
  createdAt : Time
  updatedAt : Time

end DevOps
