import DevOpsAssistant.Core.Config
import DevOpsAssistant.Core.Database
import DevOpsAssistant.Services.AuthService
import DevOpsAssistant.Services.OrganizationAuthService
import DevOpsAssistant.Text.Strings

/-!
# Profiles

* `normalizeUsername`, `validateUsername`: the usernames a profile may be given.
* `normalizeDisplayName`, `validateTimezone`, `validateAvatarUrl`.
* **`normalizeUsername_idem`**: a normalized username is normalized.
* `ProfileService.updateProfile`: the username and the other fields of a profile.
* `ProfileService`: the change of an account's address, requested by its user and confirmed with a
  mailed token.
-/

namespace DevOps

variable (env : Env)

def RESERVED_USERNAMES : List String :=
  ["admin", "administrator", "api", "auth", "devops", "me", "null", "root", "support", "system",
    "undefined"]

/-- A character of `[a-zA-Z0-9_.-]`, the pattern of the schemas and of `USERNAME_PATTERN`. -/
def isUsernameChar (c : Char) : Bool := c.isAlphanum || c = '_' || c = '.' || c = '-'

/-- `value.strip().lower()`. The schemas accept ASCII usernames only. -/
def normalizeUsername (value : String) : String := Text.lowerAscii (Text.stripped value)

def normalizeDisplayName (value : Option String) : Option String :=
  (value.map fun v => " ".intercalate (Text.words v)).filter (· ≠ "")

def validateUsername (value : String) : Db String :=
  let username := normalizeUsername value
  if ¬ (3 ≤ username.length ∧ username.length ≤ 100) then
    throw (ValidationAppError "Username must be between 3 and 100 characters.")
  else if username.toList.all isUsernameChar = false then
    throw (ValidationAppError
      "Username may contain only letters, numbers, periods, hyphens, and underscores.")
  else if username ∈ RESERVED_USERNAMES then
    throw (ValidationAppError "This username is reserved.")
  else pure username

def validateTimezone : Option String → Db (Option String)
  | none => pure none
  | some value =>
    let timezone := Text.stripped value
    if timezone = "" then pure none
    else if timezone ∉ env.availableTimezones then
      throw (ValidationAppError "Timezone must be a valid IANA timezone name.")
    else pure (some timezone)

def validateAvatarUrl : Option String → Db (Option String)
  | none => pure none
  | some value =>
    let avatarUrl := Text.stripped value
    if avatarUrl = "" then pure none
    else if 512 < avatarUrl.length then
      throw (ValidationAppError "Avatar URL must be at most 512 characters.")
    else
      match env.urlparse avatarUrl with
      | none => throw (.other "ValueError")
      | some (scheme, netloc) =>
        if (scheme ≠ "http" ∧ scheme ≠ "https") ∨ netloc = "" then
          throw (ValidationAppError "Avatar URL must use http or https.")
        else pure (some avatarUrl)

/-- **A normalized username** is normalized. -/
theorem normalizeUsername_idem (value : String) :
    normalizeUsername (normalizeUsername value) = normalizeUsername value := by
  unfold normalizeUsername
  rw [Text.stripped_lowerAscii, Text.stripped_stripped, Text.lowerAscii_lowerAscii]

end DevOps

namespace DevOps

open Txn

def GENERIC_EMAIL_CHANGE_MESSAGE : String :=
  "If the request is valid, a confirmation email has been sent."

/-- `UserProfileUpdateRequest`, with what its fields are checked for. A field is absent (`none`), null
(`some none`) or a string. -/
structure UserProfileUpdateRequest where
  username : Option (Option String) := none
  displayName : Option (Option String) := none
  timezone : Option (Option String) := none
  jobTitle : Option (Option String) := none
  avatarUrl : Option (Option String) := none
  usernameLength : ∀ v, username = some (some v) → 3 ≤ v.length ∧ v.length ≤ 100
  usernamePattern : ∀ v, username = some (some v) → v.toList.all isUsernameChar = true
  displayNameLength : ∀ v, displayName = some (some v) → v.length ≤ 120
  timezoneLength : ∀ v, timezone = some (some v) → v.length ≤ 64
  jobTitleLength : ∀ v, jobTitle = some (some v) → v.length ≤ 120
  avatarUrlLength : ∀ v, avatarUrl = some (some v) → v.length ≤ 512

namespace ProfileService

variable (env : Env)

/-- The username of an update, normalized; no other user has it. -/
def updatedUsername (user : User) : Option (Option String) → Db (Option String)
  | none => pure none
  | some none => throw (.other "AttributeError")
  | some (some value) => do
    let username ← validateUsername value
    let existing ← UserRepository.getByUsername username
    if existing.any fun other => other.id ≠ user.id then
      throw (ConflictError "Username already taken")
    else return some username

/-- A field of an update after its validator. -/
def updatedField (validate : Option String → Db (Option String)) :
    Option (Option String) → Db (Option (Option String))
  | none => pure none
  | some value => do return some (← validate value)

/-- The fields that differ from those of the user: `changed_fields`. -/
def changedFields (user : User) (updates : UserRepository.ProfileFields) :
    UserRepository.ProfileFields where
  username := updates.username.filter (· ≠ user.username)
  displayName := updates.displayName.filter (· ≠ user.displayName)
  timezone := updates.timezone.filter (· ≠ user.timezone)
  jobTitle := updates.jobTitle.filter (· ≠ user.jobTitle)
  avatarUrl := updates.avatarUrl.filter (· ≠ user.avatarUrl)

/-- No field changes. -/
def noneChanged (changed : UserRepository.ProfileFields) : Bool :=
  changed.username.isNone && changed.displayName.isNone && changed.timezone.isNone &&
    changed.jobTitle.isNone && changed.avatarUrl.isNone

/-- `job_title.strip() or None`. -/
def strippedTitle (jobTitle : Option String) : Option String :=
  (jobTitle.map Text.stripped).filter (· ≠ "")

def updateProfile (user : User) (payload : UserProfileUpdateRequest) : Db UserResponse := do
  let username ← updatedUsername user payload.username
  let timezone ← updatedField (validateTimezone env) payload.timezone
  let avatarUrl ← updatedField (validateAvatarUrl env) payload.avatarUrl
  let changed := changedFields user
    { username, displayName := payload.displayName.map normalizeDisplayName, timezone,
      jobTitle := payload.jobTitle.map strippedTitle, avatarUrl }
  if noneChanged changed then return UserResponse.ofUser user
  else match ← UserRepository.updateProfile user.id changed with
    | none => throw .assertionError
    | some updated =>
      if (changed.displayName.isSome && updated.displayName.isSome) || changed.username.isSome then
        OnboardingService.markFlag updated.id (·.profileCompleted)
          (fun o => { o with profileCompleted := true }) fun _ => rfl
      AuditService.recordEvent "user.profile.updated" updated.id none "user" updated.id
      return UserResponse.ofUser updated

def requestEmailChange (user : User) (newEmail password : String) : Db String := do
  let normalizedEmail := env.lower newEmail
  if normalizedEmail = user.email then
    throw (ValidationAppError "New email must differ from your current email.")
  else if !verifyPassword env password user.hashedPassword then
    throw (UnauthorizedError "Invalid authentication credentials.")
  else match ← UserRepository.getByEmail normalizedEmail with
    | some _ => return GENERIC_EMAIL_CHANGE_MESSAGE
    | none =>
      let _ ← EmailChangeTokenRepository.invalidateUnusedForUser user.id
      let rawToken ← generateSecureToken
      let t ← now
      let _ ← EmailChangeTokenRepository.create user.id (hashSecureToken env rawToken)
        normalizedEmail (t + minutes env.settings.emailVerificationTokenMinutes)
      sendMail normalizedEmail (.emailChangeConfirmation rawToken)
      AuditService.recordEvent "user.email_change.requested" user.id none "user" user.id
      return GENERIC_EMAIL_CHANGE_MESSAGE

def confirmEmailChange (rawToken : RawToken) : Db UserResponse := do
  match ← EmailChangeTokenRepository.getByHashForUpdate (hashSecureToken env rawToken) with
  | none => throw (UnauthorizedError INVALID_TOKEN_ERROR)
  | some tokenRecord =>
    let t ← now
    if MailedToken.spent tokenRecord t then throw (UnauthorizedError INVALID_TOKEN_ERROR)
    else match ← UserRepository.getById tokenRecord.userId with
      | none => throw (UnauthorizedError INVALID_TOKEN_ERROR)
      | some user =>
        if !user.isActive then throw (UnauthorizedError INVALID_TOKEN_ERROR)
        else
          let existing ← UserRepository.getByEmail tokenRecord.newEmail
          if existing.any fun other => other.id ≠ user.id then
            throw (ConflictError "Email unavailable")
          else
            let _ ← MailedToken.setUsedAt tokenRecord t
            match ← UserRepository.updateEmail env user.id tokenRecord.newEmail with
            | none => throw .assertionError
            | some updated =>
              let _ ← RefreshTokenRepository.revokeAllForUser updated.id "email_change"
              AuditService.recordEvent "user.email.changed" updated.id none "user" updated.id
              return UserResponse.ofUser updated

end ProfileService

end DevOps
