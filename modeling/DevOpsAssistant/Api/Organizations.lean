import DevOpsAssistant.Api.Accounts
import DevOpsAssistant.Services.InvitationService
import DevOpsAssistant.Txn.Recorded

/-!
# The routes of organizations and invitations, and the requests of the API

* `OrganizationRequest`, `OrganizationResponseBody`: the requests clients send to these routes.
* `OrganizationRequest.serve`: the program of a request, inside the unit of work of `getDb`.
* `BackendRequest`: the requests clients send, by family; `BackendRequest.serve`: the program of a request,
  inside the unit of work of `getDb`.
-/

namespace DevOps

open Txn

variable (env : Env)

/-- The requests to `/organizations` and `/invitations`; `access` is the bearer token. -/
inductive OrganizationRequest where
  | create (access : RawToken) (name : String) (slug : Option String)
  | list (access : RawToken) (limit offset : ℕ)
  | get (access : RawToken) (organizationId : UUID)
  | update (access : RawToken) (organizationId : UUID) (name slug : Option String)
  | delete (access : RawToken) (organizationId : UUID)
  | listMembers (access : RawToken) (organizationId : UUID) (limit offset : ℕ)
  | addMember (access : RawToken) (organizationId : UUID) (email : String) (role : OrgRole)
  | updateMember (access : RawToken) (organizationId userId : UUID) (role : OrgRole)
  | removeMember (access : RawToken) (organizationId userId : UUID)
  | createInvitation (access : RawToken) (organizationId : UUID) (email : String) (role : OrgRole)
  | listInvitations (access : RawToken) (organizationId : UUID) (limit offset : ℕ)
  | resendInvitation (access : RawToken) (organizationId invitationId : UUID)
  | revokeInvitation (access : RawToken) (organizationId invitationId : UUID)
  | acceptInvitation (access : RawToken) (token : RawToken)
  | declineInvitation (token : RawToken)

/-- The bodies of successful responses. -/
inductive OrganizationResponseBody where
  | organization (o : OrganizationResponse)
  | organizations (p : Page OrganizationResponse)
  | member (m : OrganizationMemberResponse)
  | members (p : Page OrganizationMemberResponse)
  | invitation (i : InvitationResponse)
  | invitations (p : Page InvitationResponse)
  | accepted (r : InvitationAcceptResponse)
  | status (s : String)

namespace OrganizationRequest

/-- The route of a request. -/
def route : OrganizationRequest → Db OrganizationResponseBody
  | create access name slug => do
    let user ← getCurrentUser env access
    return .organization (← OrganizationService.create env user name slug)
  | list access limit offset => do
    let user ← getCurrentUser env access
    return .organizations (← OrganizationService.listForUser user limit offset)
  | get access organizationId => do
    let user ← getCurrentUser env access
    return .organization (← OrganizationService.get user organizationId)
  | update access organizationId name slug => do
    let user ← getCurrentUser env access
    return .organization (← OrganizationService.update env user organizationId name slug)
  | delete access organizationId => do
    let user ← getCurrentUser env access
    OrganizationService.delete user organizationId
    return .status "deleted"
  | listMembers access organizationId limit offset => do
    let user ← getCurrentUser env access
    return .members (← OrganizationService.listMembers user organizationId limit offset)
  | addMember access organizationId email role => do
    let user ← getCurrentUser env access
    return .member (← OrganizationService.addMember env user organizationId email role)
  | updateMember access organizationId userId role => do
    let user ← getCurrentUser env access
    return .member (← OrganizationService.updateMember user organizationId userId role)
  | removeMember access organizationId userId => do
    let user ← getCurrentUser env access
    OrganizationService.removeMember user organizationId userId
    return .status "removed"
  | createInvitation access organizationId email role => do
    let user ← getCurrentUser env access
    return .invitation (← InvitationService.create env user organizationId email role)
  | listInvitations access organizationId limit offset => do
    let user ← getCurrentUser env access
    return .invitations (← InvitationService.listForOrganization user organizationId limit offset)
  | resendInvitation access organizationId invitationId => do
    let user ← getCurrentUser env access
    return .invitation (← InvitationService.resend env user organizationId invitationId)
  | revokeInvitation access organizationId invitationId => do
    let user ← getCurrentUser env access
    InvitationService.revoke user organizationId invitationId
    return .status "revoked"
  | acceptInvitation access token => do
    let user ← getCurrentUser env access
    return .accepted (← InvitationService.accept env user token)
  | declineInvitation token => do
    InvitationService.decline env token
    return .status "Invitation declined"

/-- The program of a request. -/
def serve (r : OrganizationRequest) : Db OrganizationResponseBody := getDb (r.route env)

end OrganizationRequest

end DevOps

namespace DevOps

open Txn

/-- A request to the API. -/
inductive BackendRequest where
  | account (r : AccountRequest)
  | organization (r : OrganizationRequest)

/-- The body of a successful response. -/
inductive BackendResponse where
  | account (b : AccountResponse)
  | organization (b : OrganizationResponseBody)

namespace BackendRequest

variable (env : Env)

/-- The route of a request. -/
def route : BackendRequest → Db BackendResponse
  | account r => do return .account (← r.route env)
  | organization r => do return .organization (← r.route env)

/-- The program of a request. -/
def serve (r : BackendRequest) : Db BackendResponse := getDb (r.route env)

end BackendRequest

/-- The interleaved sessions of the API. -/
abbrev BackendConfig := Config Row Answer Exc BackendResponse BackendRequest World

/-- The interleaved sessions of the API, with what they have been told. -/
abbrev BackendRun := Recorded Row Answer Exc BackendResponse BackendRequest World

/-- A session of the API. -/
abbrev BackendTx := Tx Row Answer Exc BackendResponse BackendRequest

end DevOps
