import DevOpsAssistant.Api.Accounts
import DevOpsAssistant.Services.PolicyService

/-!
# The routes of policy packs

* `PolicyChange`: the requests that bump the version of a pack.
* `PolicyRequest`: these, and the one that creates a pack.
* `PolicyRequest.serve`: the program of a request, inside the unit of work of `getDb`.
-/

namespace DevOps

open Txn

variable (env : Env)

/-- The requests to `/organizations/{organization_id}/policy-packs/{policy_pack_id}` that change the pack
or one of its rules. -/
inductive PolicyChange where
  | updatePack (access : RawToken) (organizationId policyPackId : UUID)
      (payload : PolicyPackUpdateRequest)
  | addRule (access : RawToken) (organizationId policyPackId : UUID)
      (payload : PolicyRuleCreateRequest env)
  | updateRule (access : RawToken) (organizationId policyPackId ruleId : UUID)
      (payload : PolicyRuleUpdateRequest)
  | deleteRule (access : RawToken) (organizationId policyPackId ruleId : UUID)

/-- The bodies of successful responses. -/
inductive PolicyResponseBody where
  | pack (p : PolicyPackResponse)
  | rule (r : PolicyRuleResponse)
  | deleted

namespace PolicyChange

variable {env}

/-- The organization of the request. -/
def organizationId : PolicyChange env → UUID
  | updatePack _ o _ _ | addRule _ o _ _ | updateRule _ o _ _ _ | deleteRule _ o _ _ => o

/-- The pack the request changes. -/
def policyPackId : PolicyChange env → UUID
  | updatePack _ _ p _ | addRule _ _ p _ | updateRule _ _ p _ _ | deleteRule _ _ p _ => p

/-- The route of a request. -/
def route : PolicyChange env → Db PolicyResponseBody
  | updatePack access organizationId policyPackId payload => do
    let user ← getCurrentUser env access
    return .pack (← PolicyService.updatePack user organizationId policyPackId payload)
  | addRule access organizationId policyPackId payload => do
    let user ← getCurrentUser env access
    return .rule (← PolicyService.addRule env user organizationId policyPackId payload)
  | updateRule access organizationId policyPackId ruleId payload => do
    let user ← getCurrentUser env access
    return .rule (← PolicyService.updateRule env user organizationId policyPackId ruleId payload)
  | deleteRule access organizationId policyPackId ruleId => do
    let user ← getCurrentUser env access
    PolicyService.deleteRule user organizationId policyPackId ruleId
    return .deleted

/-- The program of a request. -/
def serve (r : PolicyChange env) : Db PolicyResponseBody := getDb r.route

end PolicyChange

/-- The requests that write packs and rules. -/
inductive PolicyRequest where
  | createPack (access : RawToken) (organizationId : UUID) (payload : PolicyPackCreateRequest)
  | change (r : PolicyChange env)

namespace PolicyRequest

variable {env}

/-- The route of a request. -/
def route : PolicyRequest env → Db PolicyResponseBody
  | createPack access organizationId payload => do
    let user ← getCurrentUser env access
    return .pack (← PolicyService.createPack user organizationId payload)
  | change r => r.route

/-- The program of a request. -/
def serve (r : PolicyRequest env) : Db PolicyResponseBody := getDb r.route

end PolicyRequest

end DevOps
