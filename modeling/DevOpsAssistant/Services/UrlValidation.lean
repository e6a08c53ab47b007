import DevOpsAssistant.Core.Exceptions
import DevOpsAssistant.Net.UrlParse
import DevOpsAssistant.Text.Strings

/-!
# The base URLs of LLM providers

* `UrlSettings`, `UrlLibrary`: the settings and the library functions that the validation reads.
* `UrlValidation.rejectBlockedAddress`: an address in a special range is refused.
* `UrlValidation.resolveAddresses`: the loop over the addresses that a host resolves to.
* `validateLlmBaseUrl`: a base URL, validated and normalized.
-/

namespace DevOps

open Net Text

/-- The settings that `validate_llm_base_url` reads. -/
structure UrlSettings where
  allowInsecureLlmHttp : Bool
  allowPrivateLlmNetworks : Bool
  allowedLlmHosts : String
  appEnv : String

/-- Why a host has no addresses. -/
inductive ResolverError where
  | gaierror
  | other (e : Exc)

/-- Unicode's tables, and the resolver. -/
structure UrlLibrary where
  /-- `str.lower`. -/
  lower : List Char → List Char
  /-- `unicodedata.normalize("NFKC", text)`. -/
  nfkc : List Char → List Char
  /-- `socket.getaddrinfo`: the first entry of each socket address that is not empty. -/
  getaddrinfo : List Char → Except ResolverError (List (Option (List Char)))

/-- `settings.allowed_llm_host_list`. -/
def UrlSettings.allowedLlmHostList (settings : UrlSettings) (lib : UrlLibrary) : List (List Char) :=
  ((settings.allowedLlmHosts.toList.splitOn ',').filter fun item => strip isSpace item ≠ []).map
    fun item => lib.lower (strip isSpace item)

namespace UrlValidation

def LOCAL_HOSTS : List (List Char) := ["localhost".toList, "127.0.0.1".toList, "::1".toList]

variable (settings : UrlSettings) (lib : UrlLibrary) (provider : String)

def rejectBlockedAddress (address : IPAddress) (isLocal : Bool) : Except Exc Unit :=
  if isLocal && (settings.allowPrivateLlmNetworks || settings.allowInsecureLlmHttp) then pure ()
  else if address.isPrivate || address.isLoopback || address.isLinkLocal || address.isMulticast ||
      address.isReserved || address.isUnspecified then
    throw (ValidationAppError
      (provider ++ " base URL must not target private or restricted networks."))
  else pure ()

/-- The loop over what the resolver returns, with the addresses that have been seen. -/
def resolveAddresses (isLocal : Bool) :
    List (List Char) → List (Option (List Char)) → Except Exc Unit
  | _, [] => pure ()
  | seen, none :: addrInfos => resolveAddresses isLocal seen addrInfos
  | seen, some ipStr :: addrInfos =>
    if ipStr ∈ seen then resolveAddresses isLocal seen addrInfos
    else
      match ipAddress ipStr with
      | none => resolveAddresses isLocal (ipStr :: seen) addrInfos
      | some resolved => do
        rejectBlockedAddress settings provider resolved isLocal
        resolveAddresses isLocal (ipStr :: seen) addrInfos

def validateHost (host : List Char) (isLocal : Bool) : Except Exc Unit :=
  let allowedHosts := settings.allowedLlmHostList lib
  if allowedHosts ≠ [] ∧ host ∉ allowedHosts then
    throw (ValidationAppError (provider ++ " base URL host is not in the configured allowlist."))
  else if isLocal && settings.allowInsecureLlmHttp then pure ()
  else if settings.allowPrivateLlmNetworks then pure ()
  else
    match ipAddress host with
    | some literalIp => rejectBlockedAddress settings provider literalIp isLocal
    | none =>
      match lib.getaddrinfo host with
      | .error .gaierror =>
        throw (ValidationAppError ("Unable to resolve " ++ provider ++ " base URL host."))
      | .error (.other e) => throw e
      | .ok addrInfos => resolveAddresses settings provider isLocal [] addrInfos

/-- The URL without white space at its ends and without slashes at its end. -/
def cleanBaseUrl (baseUrl : String) : List Char :=
  (strip isSpace baseUrl.toList).rdropWhile (· = '/')

/-- `(parsed.hostname or "").lower()`. -/
def hostOf (parsed : SplitResult) : List Char := lib.lower ((parsed.hostname lib.lower).getD [])

/-- A text that may be missing is not empty. -/
def truthy (text : Option (List Char)) : Bool := text.getD [] ≠ []

/-- The checks of the parts of a URL. -/
def checkParts (parsed : SplitResult) : Except Exc Unit :=
  if parsed.scheme ∉ ["http".toList, "https".toList] then
    throw (ValidationAppError ("Invalid " ++ provider ++ " base URL scheme."))
  else if truthy parsed.username || truthy parsed.password then
    throw (ValidationAppError (provider ++ " base URL must not contain credentials."))
  else if parsed.netloc = [] then
    throw (ValidationAppError ("Invalid " ++ provider ++ " base URL host."))
  else if parsed.fragment ≠ [] then
    throw (ValidationAppError (provider ++ " base URL must not contain a fragment."))
  else pure ()

/-- The checks of a URL that is not encrypted. -/
def checkInsecureHttp (parsed : SplitResult) (isLocal : Bool) : Except Exc Unit :=
  if parsed.scheme = "http".toList then
    if !settings.allowInsecureLlmHttp then
      throw (ValidationAppError (provider ++ " base URL must use https " ++
        "(set ALLOW_INSECURE_LLM_HTTP=true for local development)."))
    else if !isLocal && settings.appEnv = "production" then
      throw (ValidationAppError (provider ++ " insecure HTTP is only allowed for localhost."))
    else pure ()
  else pure ()

end UrlValidation

open UrlValidation

def validateLlmBaseUrl (settings : UrlSettings) (lib : UrlLibrary) (baseUrl provider : String) :
    Except Exc String :=
  let cleaned := cleanBaseUrl baseUrl
  if cleaned = [] then throw (ValidationAppError (provider ++ " base URL is not configured."))
  else
    match urlsplit lib.nfkc cleaned with
    | none => throw (.other "ValueError")
    | some parsed => do
      checkParts provider parsed
      let host := hostOf lib parsed
      let isLocal := LOCAL_HOSTS.contains host
      checkInsecureHttp settings provider parsed isLocal
      validateHost settings lib provider host isLocal
      pure (String.ofList cleaned)

end DevOps
