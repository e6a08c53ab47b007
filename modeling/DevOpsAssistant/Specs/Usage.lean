import DevOpsAssistant.Services.LogAnalyzer
import DevOpsAssistant.Specs.Accounts

/-!
# What metered calls write

One lemma for each function between a service and a language model: of the tables, it writes only that
of usage events.

* `only_enforceQuotas`, `only_resolveProviderChain`, `only_generateWithRouting`: the parts.
* **`only_gateway`**, **`only_analyzeLogContent`**: a call through the gateway, and one without it.
-/

namespace DevOps

open Txn

variable (env : Env) {W : Rules}

/-! ## Quotas -/

theorem only_aggregateUsage (userId organizationId : Option UUID) (since : Option Time) :
    (UsageRepository.aggregateUsage userId organizationId since).Only (Writes W) fun _ => True :=
  only_bind ((only_selectOf _).mono (fun _ h => h) fun _ _ => trivial) fun _ => trivial

theorem only_checkLimit (limit : Option ℕ) (used asked : ℕ) (message : String) :
    (UsageQuotaService.checkLimit limit used asked message).Only (Writes W) fun _ => True := by
  unfold UsageQuotaService.checkLimit
  cases limit with
  | none => trivial
  | some n => simp only; split <;> trivial

theorem only_enforcePersonal (userId : UUID) (limit : Option ℕ) (start : Time) (estimatedTokens : ℕ)
    (message : String) : (UsageQuotaService.enforcePersonal userId limit start estimatedTokens
      message).Only (Writes W) fun _ => True := by
  unfold UsageQuotaService.enforcePersonal
  cases limit with
  | none => trivial
  | some n => exact only_bind (only_aggregateUsage _ _ _) fun (_, _) => only_checkLimit _ _ _ _

theorem only_dailyWindowStart :
    OrganizationQuotaRepository.dailyWindowStart.Only (Writes W) fun _ => True :=
  only_bind only_now fun _ => trivial

theorem only_monthlyWindowStart :
    OrganizationQuotaRepository.monthlyWindowStart.Only (Writes W) fun _ => True :=
  only_bind only_now fun _ => trivial

theorem only_enforceOrgQuota (organizationId : UUID) (estimatedTokens : ℕ) :
    (UsageQuotaService.enforceOrgQuota organizationId estimatedTokens).Only (Writes W)
      fun _ => True := by
  refine only_bind ((only_selectOne _).mono (fun _ h => h) fun _ _ => trivial) fun quota => ?_
  cases quota with
  | none => trivial
  | some quota =>
    simp only
    split
    · trivial
    · refine only_bind only_dailyWindowStart fun _ => only_bind only_monthlyWindowStart fun _ => ?_
      refine only_bind (only_aggregateUsage _ _ _) fun (_, _) => ?_
      refine only_bind (only_aggregateUsage _ _ _) fun (_, _) => ?_
      refine only_bind (only_checkLimit _ _ _ _) fun _ => only_bind (only_checkLimit _ _ _ _) fun _ => ?_
      exact only_bind (only_checkLimit _ _ _ _) fun _ => only_checkLimit _ _ _ _

theorem only_enforceQuotas (userId : UUID) (organizationId : Option UUID) (estimatedTokens : ℕ) :
    (UsageQuotaService.enforceQuotas env userId organizationId estimatedTokens).Only (Writes W)
      fun _ => True := by
  unfold UsageQuotaService.enforceQuotas
  cases organizationId with
  | some o => exact only_enforceOrgQuota o estimatedTokens
  | none =>
    simp only
    split
    · trivial
    split
    · trivial
    · refine only_bind only_dailyWindowStart fun _ => only_bind only_monthlyWindowStart fun _ => ?_
      exact only_bind (only_enforcePersonal _ _ _ _ _) fun _ => only_enforcePersonal _ _ _ _ _

theorem only_recordLlmUsage (hW : ∀ e : UsageEvent, W.insert (toRow e)) (u : LlmUsage) :
    (UsageQuotaService.recordLlmUsage u).Only (Writes W) fun _ => True :=
  only_bind (P := fun _ => True)
    (only_bind only_uuid4 fun _ => only_bind only_now fun _ =>
      only_bind (only_insertOf _ _ (hW _)) fun _ => trivial)
    fun _ => trivial

/-! ## Providers -/

theorem only_getLlmProvider (providerName : String) :
    (getLlmProvider env providerName).Only (Writes W) fun _ => True := by
  unfold getLlmProvider
  simp only
  generalize providerKey env _ = name
  split
  · trivial
  split
  · trivial
  split
  · trivial
  · exact only_bind (only_query _ trivial) fun r => only_bind (only_orRaise r) fun _ => trivial

theorem only_isOpen (providerName : String) :
    (ProviderCircuitBreaker.isOpen env providerName).Only (Writes W) fun _ => True := by
  refine only_bind (only_query _ trivial) fun snapshot => ?_
  split
  · trivial
  · refine only_bind (only_query _ trivial) fun data => ?_
    cases data.openedAt with
    | none => trivial
    | some openedAt =>
      simp only
      split
      · trivial
      · refine only_bind only_now fun t => ?_
        split
        · exact only_bind (only_query _ trivial) fun _ => trivial
        · trivial

theorem only_recordSuccess (providerName : String) :
    (ProviderCircuitBreaker.recordSuccess providerName).Only (Writes W) fun _ => True :=
  only_bind (only_query _ trivial) fun _ => only_bind only_now fun _ => only_query _ trivial

theorem only_recordFailure (providerName category : String) :
    (ProviderCircuitBreaker.recordFailure env providerName category).Only (Writes W)
      fun _ => True := by
  refine only_bind (only_query _ trivial) fun data => ?_
  simp only
  split
  · exact only_bind only_now fun _ => only_query _ trivial
  · exact only_query _ trivial

theorem only_getConfig (providerName : String) (organizationId : Option UUID) :
    (ProviderConfigRepository.getConfig providerName organizationId).Only (Writes W) fun _ => True :=
  (only_selectOne _).mono (fun _ h => h) fun _ _ => trivial

theorem only_getPolicy (operation : LLMOperation) (organizationId : Option UUID) :
    (ProviderRoutingRepository.getPolicy operation organizationId).Only (Writes W) fun _ => True :=
  (only_selectOne _).mono (fun _ h => h) fun _ _ => trivial

theorem only_orgConfig (organizationId : Option UUID) (name : String) :
    (ProviderManagementService.orgConfig organizationId name).Only (Writes W) fun _ => True := by
  cases organizationId with
  | none => trivial
  | some o => exact only_getConfig name (some o)

theorem only_explicitChain (organizationId : Option UUID) (name : String) :
    (ProviderManagementService.explicitChain organizationId name).Only (Writes W) fun _ => True := by
  refine only_bind (only_orgConfig organizationId name) fun org => ?_
  split
  · trivial
  · refine only_bind (only_getConfig name none) fun platform => ?_
    split
    · trivial
    split
    · trivial
    split <;> trivial

theorem only_policyChain (organizationId : Option UUID) : ∀ (names seen : List String),
    (ProviderManagementService.policyChain env organizationId seen names).Only (Writes W)
      fun _ => True
  | [], _ => trivial
  | providerName :: names, seen => by
    unfold ProviderManagementService.policyChain
    simp only
    split
    · exact only_policyChain organizationId names seen
    · refine only_bind (only_orgConfig organizationId _) fun org => ?_
      split
      · exact only_policyChain organizationId names _
      · refine only_bind (only_getConfig _ none) fun platform => ?_
        split
        · exact only_policyChain organizationId names _
        · exact only_bind (only_policyChain organizationId names _) fun _ => trivial

theorem only_policyOf (operation : LLMOperation) (organizationId : Option UUID) :
    (ProviderManagementService.policyOf operation organizationId).Only (Writes W) fun _ => True := by
  cases organizationId with
  | none => exact only_getPolicy operation none
  | some o =>
    refine only_bind (only_getPolicy operation (some o)) fun org => ?_
    cases org with
    | some policy => trivial
    | none => exact only_getPolicy operation none

theorem only_resolveProviderChain (operation : LLMOperation) (organizationId : Option UUID)
    (explicitProvider : Option String) : (ProviderManagementService.resolveProviderChain env operation
      organizationId explicitProvider).Only (Writes W) fun _ => True := by
  unfold ProviderManagementService.resolveProviderChain
  cases explicitProvider.filter (· ≠ "") with
  | some provider => exact only_explicitChain organizationId _
  | none =>
    refine only_bind (only_policyOf operation organizationId) fun policy => ?_
    cases policy with
    | none => trivial
    | some policy =>
      refine only_bind (only_policyChain env organizationId _ _) fun resolved => ?_
      split <;> trivial

theorem only_generateChain (prompt : String) (systemPrompt : Option String)
    (maxOutputTokens : Option ℕ) : ∀ (chain : ProviderManagementService.Chain) (failed : Bool),
    (ProviderManagementService.generateChain env prompt systemPrompt maxOutputTokens failed chain).Only
      (Writes W) fun _ => True
  | [], failed => by cases failed <;> trivial
  | (providerName, config) :: chain, failed => by
    refine only_bind (only_isOpen env providerName) fun isOpen => ?_
    split
    · exact only_generateChain prompt systemPrompt maxOutputTokens chain failed
    · refine only_bind (only_getLlmProvider env providerName) fun provider => ?_
      refine only_bind (only_query _ trivial) fun answer => ?_
      cases answer with
      | ok result => exact only_bind (only_recordSuccess providerName) fun _ => trivial
      | error e =>
        simp only
        split
        · exact only_bind (only_recordFailure env providerName _) fun _ =>
            only_generateChain prompt systemPrompt maxOutputTokens chain true
        · exact only_bind (only_recordFailure env providerName _) fun _ => trivial

theorem only_generateWithRouting (operation : LLMOperation) (organizationId : Option UUID)
    (explicitProvider : Option String) (prompt : String) (systemPrompt : Option String)
    (maxOutputTokens : Option ℕ) : (ProviderManagementService.generateWithRouting env operation
      organizationId explicitProvider prompt systemPrompt maxOutputTokens).Only (Writes W)
        fun _ => True :=
  only_bind (only_resolveProviderChain env operation organizationId explicitProvider) fun chain =>
    only_generateChain env prompt systemPrompt maxOutputTokens chain false

/-! ## Calls -/

/-- **A call through the gateway.** -/
theorem only_gateway (hW : ∀ e : UsageEvent, W.insert (toRow e)) (user : User)
    (operation : LLMOperation) (organizationId : Option UUID) (prompt : String)
    (systemPrompt explicitProvider : Option String) (maxOutputTokens : Option ℕ) :
    (LLMGateway.generate env user operation organizationId prompt systemPrompt explicitProvider
      maxOutputTokens).Only (Writes W) fun _ => True :=
  only_bind (only_enforceQuotas env _ _ _) fun _ =>
    only_bind (only_generateWithRouting env _ _ _ _ _ _) fun _ =>
      only_bind (only_recordLlmUsage hW _) fun _ => trivial

theorem only_firstAvailable : ∀ chain : ProviderManagementService.Chain,
    (LLMGateway.firstAvailable env chain).Only (Writes W) fun _ => True
  | [] => trivial
  | (providerName, _) :: chain => by
    refine only_bind (only_isOpen env providerName) fun isOpen => ?_
    split
    · exact only_firstAvailable chain
    · exact only_bind (only_getLlmProvider env providerName) fun _ => trivial

/-- The provider of a stream. -/
theorem only_resolveStreamProvider (user : User) (operation : LLMOperation)
    (organizationId : Option UUID) (estimatedTokens : ℕ) (explicitProvider : Option String) :
    (LLMGateway.resolveStreamProvider env user operation organizationId estimatedTokens
      explicitProvider).Only (Writes W) fun _ => True :=
  only_bind (only_enforceQuotas env _ _ _) fun _ =>
    only_bind (only_resolveProviderChain env _ _ _) fun chain => only_firstAvailable env chain

theorem only_validateLogResult (raw : String) :
    (validateLogResult env raw).Only (Writes W) fun _ => True := by
  unfold validateLogResult
  split <;> trivial

/-- **A call without the gateway.** -/
theorem only_analyzeLogContent (hW : ∀ e : UsageEvent, W.insert (toRow e))
    (content providerName : String) (userId : UUID) (organizationId : Option UUID) (poisoned : Bool) :
    (analyzeLogContent env content providerName userId organizationId poisoned).Only (Writes W)
      fun _ => True := by
  refine only_tryCatch (only_bind (only_getLlmProvider env _) fun provider => ?_) fun e => ?_
  · refine only_bind (only_bind (only_query _ trivial) fun r => only_orRaise r) fun raw => ?_
    refine only_bind (only_validateLogResult env raw) fun _ => ?_
    split
    · trivial
    · exact only_recordLlmUsage hW _
  · split <;> trivial

theorem only_generateLogs (hW : ∀ e : UsageEvent, W.insert (toRow e)) (user : User)
    (cleaned providerName : String) (organizationId : Option UUID) :
    (LogAnalyzerService.generate env user cleaned providerName organizationId).Only (Writes W)
      fun _ => True :=
  only_bind (only_gateway env hW _ _ _ _ _ _ _) fun (raw, _) => only_validateLogResult env raw

end DevOps
