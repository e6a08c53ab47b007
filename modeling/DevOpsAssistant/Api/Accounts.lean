import DevOpsAssistant.Services.ProfileService

/-!
# The routes of accounts, sessions and profiles

The two requests that give a user a name.

* `getCurrentUser`: the user an access token stands for.
* `AccountRequest`, `AccountResponse`: the requests clients send to these routes.
* `AccountRequest.serve`: the program of a request, inside the unit of work of `getDb`.
* `RegisterRequest`, `ProfileRequest`: the requests, with what their schemas check.
* `ProfileRequest.serve`: the program of a request, inside the unit of work of `getDb`.
-/

namespace DevOps

open Txn

variable (env : Env)

/-- `get_current_user`. -/
def getCurrentUser (token : RawToken) : Db User := do
  let payload ← decodeAccessToken env token
  match payload.sub with
  | none => throw (UnauthorizedError.withCode "Invalid token subject" .unauthorized)
  | some userId =>
    match ← UserRepository.getById userId with
    | none => throw (UnauthorizedError.withCode "User not found or inactive" .unauthorized)
    | some user =>
      if !user.isActive then
        throw (UnauthorizedError.withCode "User not found or inactive" .unauthorized)
      else return user

/-- The requests to `/auth` and `/users`; `access` is the bearer token, `current` the
`X-Refresh-Token` header. -/
inductive AccountRequest where
  | register (email username password : String)
  | login (username password : String)
  | refresh (refreshToken : RawToken)
  | logout (refreshToken : RawToken)
  | logoutAll (access : RawToken)
  | forgotPassword (email : String)
  | resetPassword (token : RawToken) (newPassword : String)
  | changePassword (access : RawToken) (current : Option RawToken)
      (currentPassword newPassword : String)
  | sendVerification (access : RawToken)
  | verifyEmail (token : RawToken)
  | listSessions (access : RawToken) (current : Option RawToken)
  | revokeSession (access : RawToken) (sessionId : UUID)
  | requestEmailChange (access : RawToken) (newEmail password : String)
  | confirmEmailChange (token : RawToken)

/-- The bodies of successful responses. -/
inductive AccountResponse where
  | user (u : UserResponse)
  | tokenPair (p : TokenPairResponse)
  | sessions (s : List SessionResponse)
  | message (m : String)

namespace AccountRequest

/-- The route of a request. -/
def route : AccountRequest → Db AccountResponse
  | register email username password => do
    return .user (← AuthService.register env email username password)
  | login username password => do return .tokenPair (← AuthService.login env username password)
  | refresh refreshToken => do return .tokenPair (← AuthService.refresh env refreshToken)
  | logout refreshToken => do
    AuthService.logout env refreshToken
    return .message "Logged out successfully"
  | logoutAll access => do
    let user ← getCurrentUser env access
    AuthService.logoutAll user
    return .message "All sessions revoked"
  | forgotPassword email => do return .message (← AuthService.forgotPassword env email)
  | resetPassword token newPassword => do
    AuthService.resetPassword env token newPassword
    return .message "Password reset successful"
  | changePassword access current currentPassword newPassword => do
    let user ← getCurrentUser env access
    AuthService.changePassword env user currentPassword newPassword current
    return .message "Password changed successfully"
  | sendVerification access => do
    let user ← getCurrentUser env access
    AuthService.sendVerificationEmail env user
    return .message "Verification email sent"
  | verifyEmail token => do return .user (← AuthService.verifyEmail env token)
  | listSessions access current => do
    let user ← getCurrentUser env access
    return .sessions (← AuthService.listSessions env user current)
  | revokeSession access sessionId => do
    let user ← getCurrentUser env access
    AuthService.revokeSession user sessionId
    return .message "Session revoked"
  | requestEmailChange access newEmail password => do
    let user ← getCurrentUser env access
    return .message (← ProfileService.requestEmailChange env user newEmail password)
  | confirmEmailChange token => do
    return .user (← ProfileService.confirmEmailChange env token)

/-- The program of a request. -/
def serve (r : AccountRequest) : Db AccountResponse := getDb (r.route env)

end AccountRequest

end DevOps

namespace DevOps

open Txn

variable (env : Env)

/-- `RegisterRequest`, with what its fields are checked for. -/
structure RegisterRequest where
  email : String
  username : String
  password : String
  /-- An address has at most 254 characters, also in lower case. -/
  emailLength : (env.lower email).length ≤ 254
  usernameLength : 3 ≤ username.length ∧ username.length ≤ 100
  usernamePattern : username.toList.all isUsernameChar = true
  passwordLength : env.settings.passwordMinLength ≤ password.length ∧
    password.length ≤ env.settings.passwordMaxLength

/-- The requests to `/auth/register` and `PATCH /users/me`. -/
inductive ProfileRequest where
  | register (payload : RegisterRequest env)
  | updateMe (access : RawToken) (payload : UserProfileUpdateRequest)

namespace ProfileRequest

variable {env}

/-- The route of a request. -/
def route : ProfileRequest env → Db UserResponse
  | register payload =>
    AuthService.register env payload.email payload.username payload.password
  | updateMe access payload => do
    let user ← getCurrentUser env access
    ProfileService.updateProfile env user payload

/-- The program of a request. -/
def serve (r : ProfileRequest env) : Db UserResponse := getDb r.route

end ProfileRequest

end DevOps
