import DevOpsAssistant.Api.Accounts
import DevOpsAssistant.Rpc.Call
import Mathlib.Algebra.GroupWithZero.Nat

/-!
# The route handlers of the frontend

The browser holds its tokens in cookies; the handlers read and write them and call the backend.

* `Cookies`, `SetCookie`: the auth cookies of a browser, and what a response does to them.
* `Handler`: the programs of the route handlers.
* `tryRefreshTokens`, `handle`, `proxyAuthenticatedAuth`, `changePasswordPost`: the handlers.
* `authenticated`, `backend`: the routes they call, and how the backend answers.
-/

namespace DevOps

open Txn Rpc

/-! ## Cookies -/

/-- The cookies `ada_access` and `ada_refresh`. -/
structure Cookies where
  access : Option RawToken
  refresh : Option RawToken

/-- What a response does to the auth cookies. -/
inductive SetCookie where
  | keep
  | clear
  | set (access refresh : RawToken)
deriving DecidableEq

/-- The cookies of a browser after a response. -/
def Cookies.apply (c : Cookies) : SetCookie → Cookies
  | .keep => c
  | .clear => ⟨none, none⟩
  | .set access refresh => ⟨some access, some refresh⟩

/-- The cookies as a handler sees them: those of the request, and what it has set since. -/
structure Jar where
  request : Cookies
  pending : SetCookie

/-- What the handler reads. -/
def Jar.cookies (j : Jar) : Cookies := j.request.apply j.pending

/-! ## Calls to the backend -/

/-- The tokens a JSON body carries under `access_token` and `refresh_token`. -/
structure AuthTokenPair where
  accessToken : RawToken
  refreshToken : RawToken

/-- A response of the backend; `pair` is its body, when it is a token pair. -/
structure UpstreamResponse where
  status : ℕ
  pair : Option AuthTokenPair

/-- `response.ok`. -/
def UpstreamResponse.ok (r : UpstreamResponse) : Bool := 200 ≤ r.status && r.status < 300

/-- A `fetch` that got no response. -/
inductive FetchError where
  | unreachable

/-- A call to the backend: the program of the route it reaches, with its parameters. -/
abbrev BackendCall := Db AccountResponse

/-- A handler and what is left of it: its calls, and at the end its status and cookies. -/
abbrev HandlerCall (α : Type) :=
  Call BackendCall (Except FetchError UpstreamResponse) (Except FetchError α × Jar)

/-- The programs of the route handlers. -/
abbrev Handler := ExceptT FetchError
  (StateT Jar (Call BackendCall (Except FetchError UpstreamResponse)))

/-- The handler as a client of the backend. -/
def Handler.start {α : Type} (h : Handler α) (request : Cookies) : HandlerCall α :=
  StateT.run (ExceptT.run h) ⟨request, .keep⟩

/-- `fetch`. -/
def fetch (call : BackendCall) : Handler UpstreamResponse :=
  ExceptT.mk fun jar => .send call fun r => .done (r, jar)

/-- A missing or empty string is no token. -/
def truthy : Option RawToken → Option RawToken
  | some (.text "") => none
  | t => t

def getAccessToken : Handler (Option RawToken) := do return (← get).cookies.access

def getRefreshToken : Handler (Option RawToken) := do return (← get).cookies.refresh

def setAuthCookies (tokens : AuthTokenPair) : Handler Unit :=
  modify fun jar => { jar with pending := .set tokens.accessToken tokens.refreshToken }

def clearAuthCookies : Handler Unit := modify fun jar => { jar with pending := .clear }

/-! ## Handlers -/

variable (env : Env)

/-- The call of `POST /auth/refresh`. -/
def refreshCall (refreshToken : RawToken) : BackendCall :=
  (AccountRequest.refresh refreshToken).route env

/-- `!pair?.access_token || !pair?.refresh_token` fails. -/
def completePair (pair : Option AuthTokenPair) : Option AuthTokenPair :=
  pair.filter fun p => (truthy (some p.accessToken)).isSome && (truthy (some p.refreshToken)).isSome

/-- `tryRefreshTokens`, of the BFF and of the auth proxy. -/
def tryRefreshTokens : Handler (Option RawToken) := do
  match truthy (← getRefreshToken) with
  | none => return none
  | some refreshToken =>
    try
      let response ← fetch (refreshCall env refreshToken)
      if !response.ok then
        clearAuthCookies
        pure none
      else match completePair response.pair with
        | none =>
          clearAuthCookies
          pure none
        | some pair =>
          setAuthCookies pair
          pure (some pair.accessToken)
    catch _ =>
      clearAuthCookies
      pure none

/-- A request of the browser to the BFF: whether it carries the retry header, and the route it
reaches, given the bearer token. -/
structure BrowserRequest where
  alreadyRetried : Bool
  route : Option RawToken → BackendCall

/-- `proxyToBackend`. -/
def proxyToBackend (request : BrowserRequest) (accessToken : Option RawToken) :
    Handler UpstreamResponse := fetch (request.route (truthy accessToken))

/-- `handle`, of the BFF; the status of its response. -/
def handle (request : BrowserRequest) : Handler ℕ := do
  let accessToken ← getAccessToken
  let upstream ← proxyToBackend request accessToken
  if upstream.status = 401 ∧ !request.alreadyRetried then
    match ← tryRefreshTokens env with
    | none =>
      clearAuthCookies
      return 401
    | some nextAccess =>
      let upstream ← proxyToBackend request (some nextAccess)
      return upstream.status
  else return upstream.status

/-- `proxyAuthenticatedAuth`; the route is given the bearer token and `X-Refresh-Token`. -/
def proxyAuthenticatedAuth (upstreamPath : Option RawToken → Option RawToken → BackendCall)
    (includeRefreshHeader : Bool) : Handler ℕ := do
  let accessToken ← getAccessToken
  let refreshToken ← if includeRefreshHeader then getRefreshToken else pure none
  let send (token : Option RawToken) : Handler UpstreamResponse :=
    fetch (upstreamPath (truthy token) (truthy refreshToken))
  let upstream ← send accessToken
  if upstream.status = 401 then
    match ← tryRefreshTokens env with
    | none =>
      clearAuthCookies
      return 401
    | some nextAccess =>
      let upstream ← send (some nextAccess)
      return upstream.status
  else return upstream.status

/-! ## Routes -/

/-- A route that depends on `get_current_user`; without a bearer token, `OAuth2PasswordBearer`
raises. -/
def authenticated (body : User → Db AccountResponse) : Option RawToken → BackendCall
  | none => throw (UnauthorizedError.withCode "Not authenticated" .unauthorized)
  | some token => do
    let user ← getCurrentUser env token
    body user

/-- The route `POST /auth/change-password`. -/
def changePasswordRoute (currentPassword newPassword : String)
    (access current : Option RawToken) : BackendCall :=
  authenticated env (fun user => do
    AuthService.changePassword env user currentPassword newPassword current
    return .message "Password changed successfully") access

def PASSWORD_MIN : ℕ := 12

/-- The length of a string in JavaScript, in UTF-16 code units. -/
def jsLength (s : String) : ℕ := (s.toList.map fun c => if c.toNat < 0x10000 then 1 else 2).sum

/-- `POST`, of the handler for `change-password`; a field of the body that is no string is empty. -/
def changePasswordPost (currentPassword newPassword : String) : Handler ℕ := do
  if currentPassword = "" then return 400
  else if newPassword = "" ∨ jsLength newPassword < PASSWORD_MIN then return 400
  else proxyAuthenticatedAuth env (changePasswordRoute env currentPassword newPassword) true

/-! ## The backend -/

/-- The token pair in a response body. -/
def AccountResponse.pair? : AccountResponse → Option AuthTokenPair
  | .tokenPair p => some ⟨p.accessToken, p.refreshToken⟩
  | _ => none

/-- The HTTP response to the outcome of a route. -/
def UpstreamResponse.ofOutcome : Except Exc AccountResponse → UpstreamResponse
  | .ok a => ⟨200, a.pair?⟩
  | .error e => ⟨e.statusCode, none⟩

/-- A reachable backend answers every call. -/
def backend (call : BackendCall) (s : State) : Except FetchError UpstreamResponse × State :=
  (.ok (.ofOutcome (s.serve respond getDb call).1), (s.serve respond getDb call).2)

end DevOps
