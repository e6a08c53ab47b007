import DevOpsAssistant.Core.Exceptions

/-!
# Settings and libraries

* `Settings`: the settings the services read, with what their validators check as fields.
* `RawToken`: the strings clients present as tokens.
* `Env`: the settings and the library functions the services call.
-/

namespace DevOps

def SAFE_JWT_ALGORITHMS : List String := ["HS256"]

/-- The settings the services read. -/
structure Settings where
  accessTokenExpireMinutes : ℕ
  refreshTokenExpireDays : ℕ
  jwtAlgorithm : String
  jwtClockSkewSeconds : ℕ
  passwordMinLength : ℕ
  passwordMaxLength : ℕ
  passwordRejectCommon : Bool
  emailVerificationRequired : Bool
  passwordResetTokenMinutes : ℕ
  emailVerificationTokenMinutes : ℕ
  invitationExpireHours : ℕ
  backgroundTaskRetentionDays : ℕ
  providerCircuitFailureThreshold : ℕ
  providerCircuitRecoverySeconds : ℕ
  usageDefaultDailyTokenLimit : Option ℕ
  usageDefaultMonthlyTokenLimit : Option ℕ
  usageEnforcePersonalQuotas : Bool
  llmProvider : String
  geminiApiKey : String
  llamaApiKey : String
  mistralApiKey : String
  chatHistoryLimit : ℕ
  blockArtifactSaveOnCriticalPolicyFailure : Bool
  maxArtifactContentSizeBytes : ℕ
  validateJwtAlgorithm : jwtAlgorithm ∈ SAFE_JWT_ALGORITHMS
  validatePasswordMin : 12 ≤ passwordMinLength
  validatePasswordMax : passwordMinLength ≤ passwordMaxLength

/-- The settings of a deployment that overrides none. -/
def Settings.default : Settings where
  accessTokenExpireMinutes := 60
  refreshTokenExpireDays := 14
  jwtAlgorithm := "HS256"
  jwtClockSkewSeconds := 30
  passwordMinLength := 12
  passwordMaxLength := 128
  passwordRejectCommon := true
  emailVerificationRequired := false
  passwordResetTokenMinutes := 60
  emailVerificationTokenMinutes := 1440
  invitationExpireHours := 168
  backgroundTaskRetentionDays := 30
  providerCircuitFailureThreshold := 5
  providerCircuitRecoverySeconds := 60
  usageDefaultDailyTokenLimit := none
  usageDefaultMonthlyTokenLimit := none
  usageEnforcePersonalQuotas := false
  llmProvider := "gemini"
  geminiApiKey := ""
  llamaApiKey := ""
  mistralApiKey := ""
  chatHistoryLimit := 10
  blockArtifactSaveOnCriticalPolicyFailure := true
  maxArtifactContentSizeBytes := 1000000
  validateJwtAlgorithm := by decide
  validatePasswordMin := by decide
  validatePasswordMax := by decide

/-- `TokenType`. -/
inductive TokenType where
  | access
  | refresh
deriving DecidableEq

/-- The claims of a signed token that the services read. Times are in seconds; a subject that is
not a UUID is `none`. -/
structure TokenPayload where
  sub : Option UUID
  jti : UUID
  tokenType : TokenType
  exp : ℕ
  familyId : Option UUID
deriving DecidableEq

/-- A string presented as a token: one whose signature, issuer and audience verify, stands for
its claims; one drawn by `token_urlsafe`, for its draw; any other, for itself. -/
inductive RawToken where
  | jwt (payload : TokenPayload)
  | secure (n : ℕ)
  | text (s : String)
deriving DecidableEq

/-- The Unicode properties of characters that regular expressions ask for. -/
structure Unicode where
  isSpace : Char → Bool
  isDecimal : Char → Bool
  isWord : Char → Bool

/-- A YAML or JSON document. -/
inductive Yaml where
  | null
  | bool (b : Bool)
  | int (n : Int)
  | str (s : String)
  | seq (items : List Yaml)
  | map (entries : List (String × Yaml))
  | other

/-- What a language model has written of a Dockerfile. -/
structure DockerfileDraft where
  content : String
  explanation : List String
  warnings : List String
  bestPractices : List String
  dockerignoreRecommendations : List String

/-- The settings, and the library functions the services call. -/
structure Env where
  settings : Settings
  /-- HMAC-SHA256 under the pepper. -/
  hmac : RawToken → String
  /-- bcrypt, with the salt as a second argument. -/
  bcryptHash : String → ℕ → String
  bcryptVerify : String → String → Bool
  bcryptNeedsUpdate : String → Bool
  /-- `str.lower`. -/
  lower : String → String
  /-- `str.strip`. -/
  strip : String → String
  /-- `json.dumps` of `_static_log_signals`. -/
  staticLogSignals : String → String
  /-- The text of a model parses as a `LogAnalyzeResult`. -/
  parsesLogResult : String → Bool
  unicode : Unicode
  /-- The SHA-256 digest of a text in UTF-8, in hexadecimal digits. -/
  sha256 : String → String
  /-- `model_dump_json`, of the fields of a model. -/
  dumpsJson : Yaml → String
  /-- `yaml.safe_dump_all`. -/
  safeDumpAll : List Yaml → String
  /-- `yaml.safe_load_all`; `none` is a `YAMLError`. -/
  safeLoadAll : String → Option (List Yaml)
  /-- `DockerfileResponse.model_validate(json.loads(text))`, if neither raises. -/
  loadsDockerfile : String → Option DockerfileDraft
  /-- The texts of `command` and `explanation` in `json.loads(text)`, if it is an object. -/
  loadsCommand : String → Option (Option String × Option String)
  /-- `available_timezones`. -/
  availableTimezones : List String
  /-- The scheme and the network location of a URL; `none` is a `ValueError`. -/
  urlparse : String → Option (String × String)

/-- The default settings with an API key, and library functions that can be evaluated on short
inputs: tokens are hashed to strings of different lengths, passwords to themselves. -/
def Env.trial : Env where
  settings := { Settings.default with geminiApiKey := "key" }
  hmac
    | .jwt payload => String.ofList (List.replicate payload.jti 'j')
    | .secure n => String.ofList (List.replicate n 's')
    | .text s => s
  bcryptHash password _ := password
  bcryptVerify password hash := password == hash
  bcryptNeedsUpdate _ := false
  lower s := String.ofList (s.toList.map Char.toLower)
  strip s := s
  staticLogSignals _ := "{}"
  parsesLogResult _ := true
  unicode := ⟨Char.isWhitespace, Char.isDigit, fun c => c.isAlphanum || c == '_'⟩
  sha256 s := s
  dumpsJson _ := "\x7b\x7d"
  safeDumpAll _ := "kind: Deployment"
  safeLoadAll _ := some [.map []]
  loadsDockerfile s := some ⟨s, [], [], [], []⟩
  loadsCommand s := some (some s, none)
  availableTimezones := ["UTC"]
  urlparse _ := some ("https", "example.org")

/-- A time as whole seconds. -/
def Time.seconds (t : Time) : ℕ := t / 1000000

/-- `timedelta(seconds=n)`. -/
def seconds (n : ℕ) : Time := n * 1000000

/-- `timedelta(minutes=n)`. -/
def minutes (n : ℕ) : Time := seconds (n * 60)

/-- `timedelta(hours=n)`. -/
def hours (n : ℕ) : Time := minutes (n * 60)

/-- `timedelta(days=n)`. -/
def days (n : ℕ) : Time := minutes (n * 24 * 60)

end DevOps
