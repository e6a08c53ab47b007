import DevOpsAssistant.Services.UsageQuotaService

/-!
# Language-model providers

* `getLlmProvider`: the provider of a name, if it is configured.
* `ProviderCircuitBreaker`: providers that failed often are left alone for a while.
* `ProviderManagementService`: the providers of an operation in their order; the first that answers.
-/

namespace DevOps

open Txn

variable (env : Env)

/-! ## The factory -/

def SUPPORTED_PROVIDERS : List String := ["gemini", "llama", "mistral"]

/-- The API key of a provider. -/
def apiKeyOf (providerName : String) : String :=
  if providerName = "gemini" then env.settings.geminiApiKey
  else if providerName = "llama" then env.settings.llamaApiKey
  else if providerName = "mistral" then env.settings.mistralApiKey
  else ""

def isProviderEnvConfigured (providerName : String) : Bool := env.strip (apiKeyOf env providerName) ≠ ""

/-- `name.lower().strip()`. -/
def providerKey (name : String) : String := env.strip (env.lower name)

/-- The name of the provider, whose constructor checks the base URL except for Gemini. -/
def getLlmProvider (providerName : String) : Db String := do
  let name := providerKey env (if providerName = "" then env.settings.llmProvider else providerName)
  if name ∉ SUPPORTED_PROVIDERS then
    throw (ValidationAppError ("Unsupported LLM provider '" ++ name ++ "'."))
  else if !isProviderEnvConfigured env name then
    throw (ValidationAppError ("Provider '" ++ name ++ "' is not configured."))
  else if name = "gemini" then return name
  else
    orRaise (← Prog.query (Query.validateBaseUrl name))
    return name

/-! ## The circuit breaker -/

namespace ProviderCircuitBreaker

def load (providerName : String) : Db CircuitData := Prog.query (Query.loadCircuit providerName)

def save (providerName : String) (data : CircuitData) : Db Unit :=
  Prog.query (Query.saveCircuit providerName data)

def isOpen (providerName : String) : Db Bool := do
  let snapshot ← load providerName
  if snapshot.state ≠ .opened then return false
  else
    let data ← load providerName
    match data.openedAt with
    | none => return true
    | some openedAt =>
      if openedAt = 0 then return true
      else
        let t ← now
        if openedAt + seconds env.settings.providerCircuitRecoverySeconds ≤ t then
          save providerName { data with state := .halfOpen }
          return false
        else return true

def recordSuccess (providerName : String) : Db Unit := do
  let data ← load providerName
  let t ← now
  save providerName
    { data with
      state := .closed
      failureCount := 0
      successCount := data.successCount + 1
      lastSuccessAt := some t }

def recordFailure (providerName category : String) : Db Unit := do
  let data ← load providerName
  let failures := data.failureCount + 1
  if env.settings.providerCircuitFailureThreshold ≤ failures then
    let t ← now
    save providerName
      { data with
        state := .opened
        failureCount := failures
        lastFailureCategory := some category
        openedAt := some t }
  else
    save providerName
      { data with
        state := .closed
        failureCount := failures
        lastFailureCategory := some category }

end ProviderCircuitBreaker

/-! ## Routing -/

namespace ProviderManagementService

/-- A provider and its settings, in the order in which they are tried. -/
abbrev Chain := List (String × Option ProviderConfig)

/-- The settings of an organization for a provider. -/
def orgConfig (organizationId : Option UUID) (name : String) : Db (Option ProviderConfig) :=
  match organizationId with
  | none => pure none
  | some o => ProviderConfigRepository.getConfig name (some o)

/-- The chain of an explicit provider. -/
def explicitChain (organizationId : Option UUID) (name : String) : Db Chain := do
  let org ← orgConfig organizationId name
  if org.any fun c => !c.enabled then
    throw (ValidationAppError ("Provider '" ++ name ++ "' is disabled for this organization."))
  else
    let platform ← ProviderConfigRepository.getConfig name none
    if org.isSome then return [(name, org)]
    else if platform.any (·.enabled) then return [(name, platform)]
    else if name ∈ SUPPORTED_PROVIDERS then return [(name, platform)]
    else throw (ValidationAppError ("Unsupported provider '" ++ name ++ "'."))

/-- The providers of a policy that are enabled, each once. -/
def policyChain (organizationId : Option UUID) (seen : List String) : List String → Db Chain
  | [] => pure []
  | providerName :: names => do
    let name := providerKey env providerName
    if name = "" ∨ name ∈ seen then policyChain organizationId seen names
    else
      let org ← orgConfig organizationId name
      if org.any fun c => !c.enabled then policyChain organizationId (name :: seen) names
      else
        let platform ← ProviderConfigRepository.getConfig name none
        if platform.any fun c => !c.enabled then policyChain organizationId (name :: seen) names
        else
          let rest ← policyChain organizationId (name :: seen) names
          return (name, org <|> platform) :: rest

/-- The policy of an operation: that of the organization, or of the platform. -/
def policyOf (operation : LLMOperation) (organizationId : Option UUID) :
    Db (Option ProviderRoutingPolicy) := do
  let org ← match organizationId with
    | none => pure none
    | some o => ProviderRoutingRepository.getPolicy operation (some o)
  match org with
  | some policy => return some policy
  | none => ProviderRoutingRepository.getPolicy operation none

def resolveProviderChain (operation : LLMOperation) (organizationId : Option UUID)
    (explicitProvider : Option String) : Db Chain := do
  match explicitProvider.filter (· ≠ "") with
  | some provider => explicitChain organizationId (providerKey env provider)
  | none =>
    match ← policyOf operation organizationId with
    | none => return [(env.lower env.settings.llmProvider, none)]
    | some policy =>
      let resolved ←
        policyChain env organizationId [] (policy.primaryProvider :: policy.fallbackProviders)
      if resolved.isEmpty then return [(env.lower env.settings.llmProvider, none)]
      else return resolved

def buildProvider (providerName : String) : Db String := getLlmProvider env providerName

/-- What a provider has answered. -/
structure Generated where
  result : String
  providerName : String
  inputTokens : ℕ
  outputTokens : ℕ

/-- An exception after which the next provider is tried. -/
def isTransient : Exc → Bool
  | .httpError | .timeoutError => true
  | e => e.isA .llmProvider

/-- The tokens a call may produce. -/
def tokensLimit (maxOutputTokens : Option ℕ) (config : Option ProviderConfig) : ℕ :=
  match maxOutputTokens.filter (· ≠ 0) with
  | some n => n
  | none => (config.map (·.maxOutputTokens)).getD 4096

/-- The loop of `generate_with_routing`; `failed` if a provider has been tried. -/
def generateChain (prompt : String) (systemPrompt : Option String) (maxOutputTokens : Option ℕ)
    (failed : Bool) : Chain → Db Generated
  | [] =>
    if failed then throw (LLMProviderError "All configured LLM providers failed.")
    else throw (LLMProviderError "No enabled LLM providers available.")
  | (providerName, config) :: chain => do
    if ← ProviderCircuitBreaker.isOpen env providerName then
      generateChain prompt systemPrompt maxOutputTokens failed chain
    else
      let provider ← buildProvider env providerName
      let call : LLMCall := ⟨provider, prompt, systemPrompt, tokensLimit maxOutputTokens config⟩
      match ← Prog.query (Query.generate call) with
      | .ok result =>
        ProviderCircuitBreaker.recordSuccess providerName
        let systemTokens := (systemPrompt.map (estimateTokens env)).getD 0
        return ⟨result, providerName, estimateTokens env prompt + systemTokens,
          estimateTokens env result⟩
      | .error e =>
        if isTransient e then
          ProviderCircuitBreaker.recordFailure env providerName "transient"
          generateChain prompt systemPrompt maxOutputTokens true chain
        else
          ProviderCircuitBreaker.recordFailure env providerName "permanent"
          throw e

def generateWithRouting (operation : LLMOperation) (organizationId : Option UUID)
    (explicitProvider : Option String) (prompt : String) (systemPrompt : Option String)
    (maxOutputTokens : Option ℕ) : Db Generated := do
  let chain ← resolveProviderChain env operation organizationId explicitProvider
  generateChain env prompt systemPrompt maxOutputTokens false chain

end ProviderManagementService

/-! ## The gateway -/

namespace LLMGateway

/-- `len(text.strip()) // 4`. -/
def strippedTokens (text : String) : ℕ := (env.strip text).length / 4

def generate (user : User) (operation : LLMOperation) (organizationId : Option UUID)
    (prompt : String) (systemPrompt explicitProvider : Option String)
    (maxOutputTokens : Option ℕ) : Db (String × String) := do
  let estimatedInput :=
    strippedTokens env prompt + (systemPrompt.map (strippedTokens env)).getD 0
  UsageQuotaService.enforceQuotas env user.id organizationId (max 1 estimatedInput)
  let generated ← ProviderManagementService.generateWithRouting env operation organizationId
    explicitProvider prompt systemPrompt maxOutputTokens
  UsageQuotaService.recordLlmUsage
    ⟨user.id, organizationId, operation.value, generated.providerName, none,
      generated.inputTokens, generated.outputTokens, true⟩
  return (generated.result, generated.providerName)

/-- The provider the first closed circuit of a chain belongs to. -/
def firstAvailable : ProviderManagementService.Chain → Db (String × String)
  | [] => throw (LLMProviderError "No available LLM providers for this request.")
  | (providerName, _) :: chain => do
    if ← ProviderCircuitBreaker.isOpen env providerName then firstAvailable chain
    else return (← ProviderManagementService.buildProvider env providerName, providerName)

def resolveStreamProvider (user : User) (operation : LLMOperation) (organizationId : Option UUID)
    (estimatedTokens : ℕ) (explicitProvider : Option String) : Db (String × String) := do
  UsageQuotaService.enforceQuotas env user.id organizationId (max 1 estimatedTokens)
  let chain ← ProviderManagementService.resolveProviderChain env operation organizationId
    explicitProvider
  firstAvailable env chain

end LLMGateway

end DevOps
