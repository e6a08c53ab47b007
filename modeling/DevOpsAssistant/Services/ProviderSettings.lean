import DevOpsAssistant.Services.ProviderService

/-!
# Settings of providers

* `providerDefaults`: the settings of a provider that none have been written for.
* `ConfigFields.inherited`, `ConfigFields.defaulted`, …: what stands for settings that are left out.
* `ProviderManagementService.patchConfig`: the settings of a request are written.
-/

namespace DevOps

open Txn
open ProviderConfigRepository (ConfigFields orDefault getConfig upsertConfig)

/-- A row of `provider_defaults`. -/
structure ProviderDefaults where
  model : String
  secretEnvKey : String
  baseUrlEnvKey : Option String
  modelEnvKey : String

/-- `provider_defaults[name]`, of a supported provider. -/
def providerDefaults (name : String) : ProviderDefaults :=
  if name = "gemini" then ⟨"gemini-1.5-flash", "GEMINI_API_KEY", none, "GEMINI_MODEL"⟩
  else if name = "llama" then
    ⟨"llama-3.1-8b-instruct", "LLAMA_API_KEY", some "LLAMA_BASE_URL", "LLAMA_MODEL"⟩
  else ⟨"mistral-small-latest", "MISTRAL_API_KEY", some "MISTRAL_BASE_URL", "MISTRAL_MODEL"⟩

/-- `value or other`, of texts. -/
def orText (value other : Option String) : Option String :=
  match value with
  | none => other
  | some text => if text = "" then other else some text

namespace ProviderConfigRepository.ConfigFields

/-- A request that names no secret sets up a platform row with the keys of the defaults. -/
def platformDefaults (fields : ConfigFields) (d : ProviderDefaults) : ConfigFields :=
  { fields with
    secretEnvKey := some d.secretEnvKey
    baseUrlEnvKey := d.baseUrlEnvKey
    modelEnvKey := some d.modelEnvKey
    defaultModel := orText fields.defaultModel (some d.model) }

/-- A new row of an organization takes what the request leaves out from the platform row. -/
def inherited (fields : ConfigFields) (platform : ProviderConfig) : ConfigFields :=
  { fields with
    defaultModel := orText fields.defaultModel (some platform.defaultModel)
    secretEnvKey := orText fields.secretEnvKey (some platform.secretEnvKey)
    baseUrlEnvKey := orText fields.baseUrlEnvKey platform.baseUrlEnvKey
    modelEnvKey := orText fields.modelEnvKey platform.modelEnvKey
    timeoutSeconds := some (orDefault fields.timeoutSeconds platform.timeoutSeconds)
    maxRetries := some (orDefault fields.maxRetries platform.maxRetries)
    priority := some (orDefault fields.priority platform.priority)
    maxOutputTokens := some (orDefault fields.maxOutputTokens platform.maxOutputTokens) }

/-- Without a platform row, it takes them from the defaults. -/
def defaulted (fields : ConfigFields) (d : ProviderDefaults) : ConfigFields :=
  { fields with
    defaultModel := orText fields.defaultModel (some d.model)
    secretEnvKey := orText fields.secretEnvKey (some d.secretEnvKey)
    baseUrlEnvKey := orText fields.baseUrlEnvKey d.baseUrlEnvKey
    modelEnvKey := orText fields.modelEnvKey (some d.modelEnvKey) }

/-- The settings of a new row, of the platform or of an organization, where there is a platform row
or not. -/
def forNew (fields : ConfigFields) (name : String) (organizationId : Option UUID)
    (platform : Option ProviderConfig) : ConfigFields :=
  match organizationId, platform with
  | none, _ =>
    if fields.secretEnvKey = none then fields.platformDefaults (providerDefaults name) else fields
  | some _, some platform => fields.inherited platform
  | some _, none =>
    if fields.secretEnvKey = none ∨ fields.defaultModel = none then
      fields.defaulted (providerDefaults name)
    else fields

end ProviderConfigRepository.ConfigFields

namespace ProviderManagementService

variable (env : Env)

/-- The platform row, which only a new row of an organization is looked up for. -/
def platformConfig (name : String) (organizationId : Option UUID) : Db (Option ProviderConfig) :=
  match organizationId with
  | none => return none
  | some _ => getConfig name none

def patchConfig (organizationId : Option UUID) (providerName : String) (fields : ConfigFields) :
    Db ProviderConfig := do
  let name := providerKey env providerName
  if name ∉ SUPPORTED_PROVIDERS then
    throw (ValidationAppError ("Unsupported provider '" ++ name ++ "'."))
  else
    match ← getConfig name organizationId with
    | some _ => upsertConfig organizationId name fields
    | none =>
      let platform ← platformConfig name organizationId
      upsertConfig organizationId name (fields.forNew name organizationId platform)

end ProviderManagementService

end DevOps
