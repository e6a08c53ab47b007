import DevOpsAssistant.Repositories.Policies
import DevOpsAssistant.Services.OrganizationService

/-!
# Policy packs

* `validateRuleConfiguration`: the configuration a rule may have.
* `PolicyService`: packs are created and renamed; rules are added, changed and deleted. Each change
  bumps the version of the pack.
-/

namespace DevOps

open Txn

variable (env : Env)

/-! ## Configurations -/

/-- The rules that have no configuration. -/
def EMPTY_CONFIGURATION_RULES : List String :=
  ["require_non_root_container", "forbid_privileged_container", "forbid_latest_image_tag",
    "require_resource_limits", "require_liveness_probe", "require_readiness_probe",
    "require_image_digest", "forbid_host_network", "forbid_host_path", "forbid_github_write_all",
    "require_pinned_github_actions", "require_terraform_encryption", "forbid_public_cloud_storage"]

def SUPPORTED_RULE_KEYS : List String :=
  EMPTY_CONFIGURATION_RULES ++ ["allowed_container_registries", "required_kubernetes_labels"]

/-- `EmptyRuleConfiguration`: no field is allowed. -/
def emptyRuleConfiguration (configuration : List (String × Yaml)) : Option RuleConfiguration :=
  if configuration.isEmpty then some ⟨[], []⟩ else none

/-- The texts of a list that has no other items. -/
def strings : List Yaml → Option (List String)
  | [] => some []
  | .str s :: items => (strings items).map (s :: ·)
  | _ :: _ => none

/-- The field `field`, the only one, as a list of texts without the blank ones, of which there is one. -/
def listConfiguration (field : String) (configuration : List (String × Yaml)) :
    Option (List String) :=
  match configuration with
  | [(name, .seq items)] =>
    if name = field then
      match strings items with
      | none => none
      | some texts =>
        let cleaned := (texts.filter fun item => env.strip item ≠ "").map env.strip
        if cleaned.isEmpty then none else some cleaned
    else none
  | _ => none

def validateRuleConfiguration (ruleKey : String) (configuration : List (String × Yaml)) :
    Except Exc RuleConfiguration :=
  if ruleKey ∉ SUPPORTED_RULE_KEYS then .error (.other "ValueError")
  else
    let validated :=
      if ruleKey = "allowed_container_registries" then
        (listConfiguration env "registries" configuration).map fun registries => ⟨registries, []⟩
      else if ruleKey = "required_kubernetes_labels" then
        (listConfiguration env "labels" configuration).map fun labels => ⟨[], labels⟩
      else emptyRuleConfiguration configuration
    match validated with
    | none => .error (.other "ValidationError")
    | some configuration => .ok configuration

/-! ## Requests and responses -/

/-- `PolicyPackCreateRequest`. -/
structure PolicyPackCreateRequest where
  name : String
  description : Option String
  isActive : Bool
  nameLength : 1 ≤ name.length ∧ name.length ≤ 200

/-- `PolicyPackUpdateRequest`. -/
structure PolicyPackUpdateRequest where
  name : Option String
  description : Option String
  isActive : Option Bool
  nameLength : ∀ n ∈ name, 1 ≤ n.length ∧ n.length ≤ 200

/-- `PolicyResourceType`. -/
def POLICY_RESOURCE_TYPES : List String :=
  ["dockerfile", "kubernetes", "terraform", "github-actions", "gitlab-ci", "jenkins", "general"]

/-- `PolicyRuleCreateRequest`. -/
structure PolicyRuleCreateRequest where
  ruleKey : String
  name : String
  description : String
  resourceType : String
  severity : PolicySeverity
  configuration : List (String × Yaml)
  remediation : Option String
  isEnabled : Bool
  ruleKeyLength : 1 ≤ ruleKey.length ∧ ruleKey.length ≤ 100
  nameLength : 1 ≤ name.length ∧ name.length ≤ 200
  descriptionLength : 1 ≤ description.length
  resourceTypeKnown : resourceType ∈ POLICY_RESOURCE_TYPES
  configurationValid : (validateRuleConfiguration env ruleKey configuration).isOk = true

/-- `PolicyRuleUpdateRequest`. -/
structure PolicyRuleUpdateRequest where
  name : Option String
  description : Option String
  severity : Option PolicySeverity
  configuration : Option (List (String × Yaml))
  remediation : Option String
  isEnabled : Option Bool
  nameLength : ∀ n ∈ name, 1 ≤ n.length ∧ n.length ≤ 200

/-- `PolicyPackResponse`. -/
structure PolicyPackResponse where
  id : UUID
  organizationId : UUID
  name : String
  description : Option String
  isActive : Bool
  version : ℕ
  createdBy : UUID

def PolicyPackResponse.ofPack (p : PolicyPack) : PolicyPackResponse :=
  ⟨p.id, p.organizationId, p.name, p.description, p.isActive, p.version, p.createdBy⟩

/-- `PolicyRuleResponse`. -/
structure PolicyRuleResponse where
  id : UUID
  policyPackId : UUID
  ruleKey : String
  name : String
  description : String
  resourceType : String
  severity : PolicySeverity
  configurationJson : RuleConfiguration
  remediation : Option String
  isEnabled : Bool

def PolicyRuleResponse.ofRule (r : PolicyRule) : PolicyRuleResponse :=
  ⟨r.id, r.policyPackId, r.ruleKey, r.name, r.description, r.resourceType, r.severity,
    r.configurationJson, r.remediation, r.isEnabled⟩

namespace PolicyService

def createPack (user : User) (organizationId : UUID) (payload : PolicyPackCreateRequest) :
    Db PolicyPackResponse := do
  let _ ← OrganizationAuthService.requirePermission organizationId user.id .policyManage
  let pack ← PolicyRepository.createPack organizationId payload.name payload.description
    payload.isActive user.id
  AuditService.recordEventOrFail "policy_pack.created" user.id organizationId "policy_pack" pack.id
  return .ofPack pack

/-- The permission check and the pack with its rules. -/
def managedPack (user : User) (organizationId policyPackId : UUID) :
    Db (PolicyPack × List PolicyRule) := do
  let _ ← OrganizationAuthService.requirePermission organizationId user.id .policyManage
  match ← PolicyRepository.getPack organizationId policyPackId with
  | none => throw (NotFoundError "Policy pack not found")
  | some found => return found

def updatePack (user : User) (organizationId policyPackId : UUID)
    (payload : PolicyPackUpdateRequest) : Db PolicyPackResponse := do
  let (pack, _) ← managedPack user organizationId policyPackId
  let updated ← PolicyRepository.updatePack pack
    { name := payload.name, description := payload.description, isActive := payload.isActive
      bumpVersion := true }
  AuditService.recordEventOrFail "policy_pack.updated" user.id organizationId "policy_pack" updated.id
  return .ofPack updated

def addRule (user : User) (organizationId policyPackId : UUID)
    (payload : PolicyRuleCreateRequest env) : Db PolicyRuleResponse := do
  let (pack, _) ← managedPack user organizationId policyPackId
  let configuration ← orRaise (validateRuleConfiguration env payload.ruleKey payload.configuration)
  let rule ← PolicyRepository.createRule pack.id
    { ruleKey := payload.ruleKey, name := payload.name, description := payload.description
      resourceType := payload.resourceType, severity := payload.severity
      configurationJson := configuration, remediation := payload.remediation
      isEnabled := payload.isEnabled }
  let _ ← PolicyRepository.updatePack pack { bumpVersion := true }
  AuditService.recordEventOrFail "policy_rule.created" user.id organizationId "policy_rule" rule.id
  return .ofRule rule

/-- The configuration an update stores, if it is to change. -/
def updatedConfiguration (rule : PolicyRule) : Option (List (String × Yaml)) →
    Except Exc (Option RuleConfiguration)
  | none => .ok none
  | some configuration => (validateRuleConfiguration env rule.ruleKey configuration).map some

def updateRule (user : User) (organizationId policyPackId ruleId : UUID)
    (payload : PolicyRuleUpdateRequest) : Db PolicyRuleResponse := do
  let (pack, rules) ← managedPack user organizationId policyPackId
  match ← PolicyRepository.getRule policyPackId ruleId rules with
  | none => throw (NotFoundError "Policy rule not found")
  | some rule =>
    let configurationJson ← orRaise (updatedConfiguration env rule payload.configuration)
    let updated ← PolicyRepository.updateRule rule
      { name := payload.name, description := payload.description, severity := payload.severity
        configurationJson, remediation := payload.remediation, isEnabled := payload.isEnabled }
    let _ ← PolicyRepository.updatePack pack { bumpVersion := true }
    AuditService.recordEventOrFail "policy_rule.updated" user.id organizationId "policy_rule"
      updated.id
    return .ofRule updated

def deleteRule (user : User) (organizationId policyPackId ruleId : UUID) : Db Unit := do
  let (pack, rules) ← managedPack user organizationId policyPackId
  match ← PolicyRepository.getRule policyPackId ruleId rules with
  | none => throw (NotFoundError "Policy rule not found")
  | some rule =>
    PolicyRepository.deleteRule rule
    let _ ← PolicyRepository.updatePack pack { bumpVersion := true }
    AuditService.recordEventOrFail "policy_rule.deleted" user.id organizationId "policy_rule" rule.id

end PolicyService

end DevOps
