import DevOpsAssistant.Core.Database
import Mathlib.Data.List.Dedup

/-!
# Passwords and tokens

Password hashing and rules, signed access and refresh tokens, and the hash tokens are stored under.
-/

namespace DevOps

variable (env : Env)

def COMMON_PASSWORDS : List String :=
  ["password", "password123", "password1234", "password12345", "password123456", "123456789012",
    "qwertyuiopas", "adminadmin12", "letmeinletmein", "welcome12345", "changeme1234",
    "securepass1234"]

/-! ## Passwords -/

/-- The salt is drawn anew for every hash. -/
def hashPassword (password : String) : Db String := do
  let salt ← uuid4
  return env.bcryptHash password salt

def verifyPassword (plainPassword hashedPassword : String) : Bool :=
  env.bcryptVerify plainPassword hashedPassword

def needsRehash (hashedPassword : String) : Bool := env.bcryptNeedsUpdate hashedPassword

/-- The rules a new password breaks. -/
def passwordErrors (password username email : String) : List String :=
  let lowered := env.lower password
  (if password.length < env.settings.passwordMinLength then
      [s!"Password must be at least {env.settings.passwordMinLength} characters."] else [])
    ++ (if env.settings.passwordMaxLength < password.length then
      [s!"Password must be at most {env.settings.passwordMaxLength} characters."] else [])
    ++ (if username ≠ "" ∧ lowered = env.lower username then
      ["Password must not match the username."] else [])
    ++ (if email ≠ "" ∧ lowered = env.lower email then
      ["Password must not match the email address."] else [])
    ++ (if env.settings.passwordRejectCommon ∧ lowered ∈ COMMON_PASSWORDS then
      ["Password is too common."] else [])
    ++ (if 2 ≤ password.length ∧ password.toList.dedup.length = 1 then
      ["Password must not consist of a single repeated character."] else [])

/-- `validate_password`; the defaults of `username` and `email` are empty. -/
def validatePassword (password username email : String) : Db Unit :=
  if passwordErrors env password username email = [] then pure ()
  else throw (ValidationAppError "Password does not meet security requirements.")

/-! ## Tokens -/

/-- `create_access_token`, with the default lifetime. -/
def createAccessToken (subject : UUID) : Db RawToken := do
  let t ← now
  let jti ← uuid4
  return .jwt ⟨some subject, jti, .access,
    Time.seconds (t + minutes env.settings.accessTokenExpireMinutes), none⟩

/-- `create_refresh_token`, with the default lifetime. -/
def createRefreshToken (subject jti familyId : UUID) : Db RawToken := do
  let t ← now
  return .jwt ⟨some subject, jti, .refresh,
    Time.seconds (t + days env.settings.refreshTokenExpireDays), some familyId⟩

def hashSecureToken (rawToken : RawToken) : String := env.hmac rawToken

def hashRefreshToken (rawToken : RawToken) : String := hashSecureToken env rawToken

/-- `secrets.token_urlsafe(32)`. -/
def generateSecureToken : Db RawToken := do
  let n ← uuid4
  return .secure n

/-- The claims of a token at the time `t`: its signature must verify, its lifetime with the
leeway must not be over, and it must have the expected type. -/
def tokenClaims (t : Time) (expectedType : TokenType) : RawToken → Option TokenPayload
  | .jwt payload =>
    if Time.seconds t ≤ payload.exp + env.settings.jwtClockSkewSeconds
        ∧ payload.tokenType = expectedType then some payload
    else none
  | _ => none

/-- `decode_token`. -/
def decodeToken (token : RawToken) (expectedType : TokenType) : Db TokenPayload :=
  if env.settings.jwtAlgorithm ∈ SAFE_JWT_ALGORITHMS then do
    let t ← now
    match tokenClaims env t expectedType token with
    | some payload => return payload
    | none =>
      throw (UnauthorizedError.withCode "Invalid authentication credentials." .unauthorized)
  else throw (UnauthorizedError.withCode "Invalid authentication credentials." .unauthorized)

/-- `decode_access_token`. -/
def decodeAccessToken (token : RawToken) : Db TokenPayload := decodeToken env token .access

end DevOps
