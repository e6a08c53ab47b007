import DevOpsAssistant.Services.Audit

/-!
# Accounts and sessions

`AuthService`: registration, login, the rotation of refresh tokens, logout, password reset and
change, email verification, and the list of sessions.
-/

namespace DevOps

open Txn

def GENERIC_AUTH_ERROR : String := "Invalid authentication credentials."

def GENERIC_RESET_SENT_MESSAGE : String :=
  "If an account exists for that email, a reset link has been sent."

def INVALID_TOKEN_ERROR : String := "Invalid or expired token."

/-- `UserResponse`. -/
structure UserResponse where
  id : UUID
  email : String
  username : String
  role : UserRole
  isActive : Bool
  emailVerifiedAt : Option Time
  displayName : Option String
  timezone : Option String
  jobTitle : Option String
  avatarUrl : Option String

/-- `UserResponse.model_validate`. -/
def UserResponse.ofUser (u : User) : UserResponse :=
  ⟨u.id, u.email, u.username, u.role, u.isActive, u.emailVerifiedAt, u.displayName, u.timezone,
    u.jobTitle, u.avatarUrl⟩

/-- `TokenPairResponse`. -/
structure TokenPairResponse where
  accessToken : RawToken
  refreshToken : RawToken
  expiresIn : ℕ

/-- `SessionResponse`. -/
structure SessionResponse where
  id : UUID
  createdAt : Time
  expiresAt : Time
  revoked : Bool
  isCurrent : Bool

/-- `refresh_token_to_session`. -/
def refreshTokenToSession (record : RefreshToken) (currentJti : Option UUID) : SessionResponse :=
  ⟨record.id, record.issuedAt, record.expiresAt, record.revokedAt.isSome, currentJti = some record.jti⟩

/-- `except UnauthorizedError`. -/
def exceptUnauthorized {α : Type} (body : Db α) (handler : Db α) : Db α :=
  body.tryCatch fun e => if e.isA .unauthorized then handler else throw e

namespace AuthService

variable (env : Env)

/-! ## Issuing tokens -/

/-- `_create_refresh_token_record` once the family is chosen. -/
def createTokenInFamily (user : User) (tokenFamilyId : UUID) : Db (RawToken × RefreshToken) := do
  let jti ← uuid4
  let rawToken ← createRefreshToken env user.id jti tokenFamilyId
  let t ← now
  let record ← RefreshTokenRepository.create user.id tokenFamilyId (hashRefreshToken env rawToken)
    jti (t + days env.settings.refreshTokenExpireDays)
  return (rawToken, record)

/-- `_create_refresh_token_record`; the default of `family_id` is a new family. -/
def createRefreshTokenRecord (user : User) : Option UUID → Db (RawToken × RefreshToken)
  | some familyId => createTokenInFamily env user familyId
  | none => do createTokenInFamily env user (← uuid4)

def buildTokenPair (user : User) (refreshToken : RawToken) : Db TokenPairResponse := do
  let accessToken ← createAccessToken env user.id
  return ⟨accessToken, refreshToken, env.settings.accessTokenExpireMinutes * 60⟩

def recordRefreshFailure (userId : Option UUID) : Db Unit :=
  AuditService.recordEvent "user.token.refresh.failure" userId none "refresh_token" none

def issueTokenPair (user : User) : Db TokenPairResponse := do
  let (refreshToken, _) ← createRefreshTokenRecord env user none
  let tokenPair ← buildTokenPair env user refreshToken
  AuditService.recordEvent "user.login.success" user.id none "user" user.id
  return tokenPair

/-! ## Registration and login -/

def sendVerificationEmail (user : User) : Db Unit := do
  if user.emailVerifiedAt.isSome then throw (ConflictError "Email is already verified")
  else
    let _ ← EmailVerificationTokenRepository.invalidateUnusedForUser user.id
    let rawToken ← generateSecureToken
    let t ← now
    let _ ← EmailVerificationTokenRepository.create user.id (hashSecureToken env rawToken)
      (t + minutes env.settings.emailVerificationTokenMinutes)
    sendMail user.email (.emailVerification rawToken)
    AuditService.recordEvent "user.email_verification.sent" user.id none "user" user.id

def register (email username password : String) : Db UserResponse := do
  validatePassword env password username email
  if (← UserRepository.getByEmail email).isSome then
    throw (ConflictError "Email already registered")
  else if (← UserRepository.getByUsername username).isSome then
    throw (ConflictError "Username already taken")
  else
    let hashedPassword ← hashPassword env password
    let user ← UserRepository.create env email username hashedPassword .user
    if env.settings.emailVerificationRequired then sendVerificationEmail env user
    return UserResponse.ofUser user

/-- The audit line of a failed login, and the error. -/
def loginFailure (userId : Option UUID) : Db TokenPairResponse := do
  AuditService.recordEvent "user.login.failure" userId none "user" userId
  throw (UnauthorizedError GENERIC_AUTH_ERROR)

def login (username password : String) : Db TokenPairResponse := do
  match ← UserRepository.getByUsername username with
  | none => loginFailure none
  | some user =>
    if !verifyPassword env password user.hashedPassword then loginFailure (some user.id)
    else if !user.isActive then loginFailure (some user.id)
    else if env.settings.emailVerificationRequired && user.emailVerifiedAt.isNone then
      loginFailure (some user.id)
    else
      if needsRehash env user.hashedPassword then
        let hashedPassword ← hashPassword env password
        let _ ← UserRepository.updateHashedPassword user.id hashedPassword
        AuditService.recordEvent "user.password.rehashed" user.id none "user" user.id
      issueTokenPair env user

/-! ## Rotation -/

/-- The audit line of a refused refresh, and the error. -/
def refreshFailure (userId : Option UUID) : Db TokenPairResponse := do
  recordRefreshFailure userId
  throw (UnauthorizedError GENERIC_AUTH_ERROR)

/-- The last part of `refresh`: the presented token is marked as used, its successor is created in
the same family, and the old row is linked to it. -/
def rotate (user : User) (tokenRecord : RefreshToken) (t : Time) : Db TokenPairResponse := do
  let _ ← updateById tokenRecord.id (fun r : RefreshToken => { r with usedAt := some t })
    fun _ => rfl
  let (refreshToken, newRecord) ← createRefreshTokenRecord env user (some tokenRecord.familyId)
  let _ ← updateById tokenRecord.id
    (fun r : RefreshToken => { r with replacedByTokenId := some newRecord.id }) fun _ => rfl
  let tokenPair ← buildTokenPair env user refreshToken
  AuditService.recordEvent "user.token.refreshed" user.id none "refresh_token" newRecord.id
  return tokenPair

def refresh (rawToken : RawToken) : Db TokenPairResponse := do
  let payload ← exceptUnauthorized (decodeToken env rawToken .refresh) do
    recordRefreshFailure none
    throw (UnauthorizedError GENERIC_AUTH_ERROR)
  match ← RefreshTokenRepository.getByJtiForUpdate payload.jti with
  | none => refreshFailure none
  | some tokenRecord =>
    if tokenRecord.usedAt.isSome || tokenRecord.revokedAt.isSome then
      let _ ← RefreshTokenRepository.revokeFamily tokenRecord.familyId "reuse_detected"
      AuditService.recordEvent "user.token.reuse_detected" tokenRecord.userId none
        "refresh_token" tokenRecord.id
      throw (UnauthorizedError GENERIC_AUTH_ERROR)
    else
      let t ← now
      if tokenRecord.expiresAt ≤ t then refreshFailure tokenRecord.userId
      else if tokenRecord.tokenHash ≠ hashRefreshToken env rawToken then
        refreshFailure tokenRecord.userId
      else match payload.sub with
        | none => refreshFailure tokenRecord.userId
        | some userId =>
          if userId ≠ tokenRecord.userId then refreshFailure tokenRecord.userId
          else match ← UserRepository.getById userId with
            | none => refreshFailure tokenRecord.userId
            | some user =>
              if !user.isActive then refreshFailure tokenRecord.userId
              else rotate env user tokenRecord t

/-! ## Logout -/

/-- The claims of a presented refresh token, `none` when `decode_token` refuses it. -/
def refreshPayload? (rawToken : RawToken) : Db (Option TokenPayload) :=
  exceptUnauthorized (do return some (← decodeToken env rawToken .refresh)) (return none)

def logout (rawToken : RawToken) : Db Unit := do
  match ← refreshPayload? env rawToken with
  | none => return ()
  | some payload =>
    match ← RefreshTokenRepository.getByJti payload.jti with
    | none => return ()
    | some tokenRecord =>
      if tokenRecord.tokenHash ≠ hashRefreshToken env rawToken then return ()
      else
        let _ ← RefreshTokenRepository.revokeToken tokenRecord "logout"
        AuditService.recordEvent "user.logout" tokenRecord.userId none "refresh_token"
          tokenRecord.id

def logoutAll (user : User) : Db Unit := do
  let _ ← RefreshTokenRepository.revokeAllForUser user.id "logout_all"
  AuditService.recordEvent "user.logout_all" user.id none "user" user.id

/-! ## Passwords -/

def forgotPassword (email : String) : Db String := do
  match ← UserRepository.getByEmail (env.lower email) with
  | none => return GENERIC_RESET_SENT_MESSAGE
  | some user =>
    if !user.isActive then return GENERIC_RESET_SENT_MESSAGE
    else
      let _ ← PasswordResetTokenRepository.invalidateUnusedForUser user.id
      let rawToken ← generateSecureToken
      let t ← now
      let _ ← PasswordResetTokenRepository.create user.id (hashSecureToken env rawToken)
        (t + minutes env.settings.passwordResetTokenMinutes)
      sendMail user.email (.passwordReset rawToken)
      AuditService.recordEvent "user.password_reset.requested" user.id none "user" user.id
      return GENERIC_RESET_SENT_MESSAGE

def resetPassword (token : RawToken) (newPassword : String) : Db Unit := do
  validatePassword env newPassword "" ""
  match ← PasswordResetTokenRepository.getByHashForUpdate (hashSecureToken env token) with
  | none => throw (UnauthorizedError INVALID_TOKEN_ERROR)
  | some tokenRecord =>
    let t ← now
    if MailedToken.spent tokenRecord t then throw (UnauthorizedError INVALID_TOKEN_ERROR)
    else match ← UserRepository.getById tokenRecord.userId with
      | none => throw (UnauthorizedError INVALID_TOKEN_ERROR)
      | some user =>
        if !user.isActive then throw (UnauthorizedError INVALID_TOKEN_ERROR)
        else
          let _ ← MailedToken.setUsedAt tokenRecord t
          let hashedPassword ← hashPassword env newPassword
          let _ ← UserRepository.updateHashedPassword user.id hashedPassword
          let _ ← RefreshTokenRepository.revokeAllForUser user.id "password_reset"
          AuditService.recordEvent "user.password_reset.completed" user.id none "user" user.id

/-- The session `change_password` keeps: that of the presented token, if it is an unrevoked token
of the user. -/
def keepJti (user : User) (currentRefreshToken : Option RawToken) : Db (Option UUID) := do
  match currentRefreshToken with
  | none => return none
  | some raw =>
    match ← refreshPayload? env raw with
    | none => return none
    | some payload =>
      match ← RefreshTokenRepository.getByJti payload.jti with
      | none => return none
      | some tokenRecord =>
        if tokenRecord.userId = user.id ∧ tokenRecord.tokenHash = hashRefreshToken env raw
            ∧ tokenRecord.revokedAt.isNone then return some tokenRecord.jti
        else return none

def changePassword (user : User) (currentPassword newPassword : String)
    (currentRefreshToken : Option RawToken) : Db Unit := do
  if !verifyPassword env currentPassword user.hashedPassword then
    throw (UnauthorizedError GENERIC_AUTH_ERROR)
  else
    validatePassword env newPassword user.username user.email
    let hashedPassword ← hashPassword env newPassword
    let _ ← UserRepository.updateHashedPassword user.id hashedPassword
    let _ ← match ← keepJti env user currentRefreshToken with
      | some jti => RefreshTokenRepository.revokeAllExceptJti user.id jti "password_change"
      | none => RefreshTokenRepository.revokeAllForUser user.id "password_change"
    AuditService.recordEvent "user.password.changed" user.id none "user" user.id

/-! ## Email verification -/

def verifyEmail (token : RawToken) : Db UserResponse := do
  match ← EmailVerificationTokenRepository.getByHashForUpdate (hashSecureToken env token) with
  | none => throw (UnauthorizedError INVALID_TOKEN_ERROR)
  | some tokenRecord =>
    let t ← now
    if MailedToken.spent tokenRecord t then throw (UnauthorizedError INVALID_TOKEN_ERROR)
    else match ← UserRepository.getById tokenRecord.userId with
      | none => throw (UnauthorizedError INVALID_TOKEN_ERROR)
      | some user =>
        if !user.isActive then throw (UnauthorizedError INVALID_TOKEN_ERROR)
        else
          let _ ← MailedToken.setUsedAt tokenRecord t
          match ← UserRepository.markEmailVerified user.id with
          | none => throw .assertionError
          | some updated =>
            AuditService.recordEvent "user.email_verified" user.id none "user" user.id
            return UserResponse.ofUser updated

/-! ## The list of sessions -/

def listSessions (user : User) (currentRefreshToken : Option RawToken) :
    Db (List SessionResponse) := do
  let currentJti ← match currentRefreshToken with
    | none => pure none
    | some raw => do
      match ← refreshPayload? env raw with
      | none => pure none
      | some payload =>
        match ← RefreshTokenRepository.getByJtiForUser payload.jti user.id with
        | none => pure none
        | some tokenRecord =>
          pure (if tokenRecord.tokenHash = hashRefreshToken env raw then some tokenRecord.jti
            else none)
  let records ← RefreshTokenRepository.listForUser user.id
  return records.map fun record => refreshTokenToSession record currentJti

def revokeSession (user : User) (sessionId : UUID) : Db Unit := do
  match ← RefreshTokenRepository.getByIdForUser sessionId user.id with
  | none => throw (NotFoundError "Session not found")
  | some record =>
    let _ ← RefreshTokenRepository.revokeToken record "session_revoked"
    AuditService.recordEvent "user.session.revoked" user.id none "refresh_token" record.id

end AuthService

end DevOps
