import DevOpsAssistant.Services.OrganizationService

/-!
# Invitations

`InvitationService`: managers of an organization invite addresses; whoever holds the mailed token
accepts or declines.
-/

namespace DevOps

open Txn

/-- `InvitationResponse`. -/
structure InvitationResponse where
  id : UUID
  organizationId : UUID
  email : String
  role : OrgRole
  status : InvitationStatus
  invitedByUserId : UUID
  expiresAt : Time
  acceptedAt : Option Time
  declinedAt : Option Time
  revokedAt : Option Time
  createdAt : Time

/-- `_to_response`. -/
def InvitationResponse.ofInvitation (i : OrganizationInvitation) : InvitationResponse :=
  ⟨i.id, i.organizationId, i.email, i.role, i.status, i.invitedByUserId, i.expiresAt, i.acceptedAt,
    i.declinedAt, i.revokedAt, i.createdAt⟩

/-- `InvitationAcceptResponse`. -/
structure InvitationAcceptResponse where
  organizationId : UUID
  organizationName : String
  role : OrgRole
  message : String

namespace InvitationService

variable (env : Env)

/-- The user with this address is no member yet. -/
def ensureNoMember (organizationId : UUID) (email : String) : Db Unit := do
  match ← UserRepository.getByEmail email with
  | none => return ()
  | some targetUser =>
    match ← OrganizationRepository.getMember organizationId targetUser.id with
    | some _ => throw (ConflictError "User is already a member of this organization")
    | none => return ()

def create (user : User) (organizationId : UUID) (email : String) (role : OrgRole) :
    Db InvitationResponse := do
  let (held, actor) ←
    OrganizationAuthService.requirePermission organizationId user.id .memberManage
  if role = .owner ∧ actor.role ≠ .owner then
    throw (ForbiddenError "Only owners may assign the owner role")
  else
    let org ← OrganizationAuthService.getActiveOrganization organizationId
    let email := env.lower email
    ensureNoMember organizationId email
    match ← OrganizationInvitationRepository.getActivePending env organizationId email with
    | some _ => throw (ConflictError "An active invitation already exists for this email")
    | none =>
      let rawToken ← generateSecureToken
      let t ← now
      let invitation ← OrganizationInvitationRepository.create env organizationId email role
        (hashSecureToken env rawToken) user.id (t + hours env.settings.invitationExpireHours)
      sendMail email (.organizationInvitation rawToken (identityMapped [held] org).name role)
      AuditService.recordEventOrFail "organization.invitation.created" user.id organizationId
        "organization_invitation" invitation.id
      OnboardingService.tryMarkFlag user.id (·.inviteTeamCompleted)
        (fun o => { o with inviteTeamCompleted := true }) fun _ => rfl
      return .ofInvitation invitation

def listForOrganization (user : User) (organizationId : UUID) (limit offset : ℕ) :
    Db (Page InvitationResponse) := do
  let _ ← OrganizationAuthService.requirePermission organizationId user.id .memberManage
  let (invitations, total) ←
    OrganizationInvitationRepository.listForOrganization organizationId limit offset
  return ⟨invitations.map .ofInvitation, total⟩

def resend (user : User) (organizationId invitationId : UUID) : Db InvitationResponse := do
  let _ ← OrganizationAuthService.requirePermission organizationId user.id .memberManage
  match ← OrganizationInvitationRepository.getById invitationId organizationId with
  | none => throw (NotFoundError "Invitation not found")
  | some invitation =>
    if invitation.status ≠ .pending then
      throw (ConflictError "Only pending invitations can be resent")
    else if invitation.revokedAt.isSome then
      throw (ConflictError "Invitation has been revoked")
    else
      let org ← OrganizationAuthService.getActiveOrganization organizationId
      let rawToken ← generateSecureToken
      let t ← now
      let updated ← OrganizationInvitationRepository.updateToken invitation
        (hashSecureToken env rawToken) (t + hours env.settings.invitationExpireHours)
      sendMail updated.email (.organizationInvitation rawToken org.name updated.role)
      AuditService.recordEventOrFail "organization.invitation.resent" user.id organizationId
        "organization_invitation" updated.id
      return .ofInvitation updated

def revoke (user : User) (organizationId invitationId : UUID) : Db Unit := do
  let _ ← OrganizationAuthService.requirePermission organizationId user.id .memberManage
  match ← OrganizationInvitationRepository.getById invitationId organizationId with
  | none => throw (NotFoundError "Invitation not found")
  | some invitation =>
    if invitation.status ≠ .pending then
      throw (ConflictError "Only pending invitations can be revoked")
    else
      let t ← now
      let _ ← OrganizationInvitationRepository.setRevoked invitation t
      AuditService.recordEventOrFail "organization.invitation.revoked" user.id organizationId
        "organization_invitation" invitation.id

/-- `selectinload` of the organization of an invitation, deleted or not. -/
def organizationOf (invitation : OrganizationInvitation) : Db (Option Organization) := do
  scalarOneOrNone (← selectOf fun o : Organization => o.id = invitation.organizationId)

/-- The invitation a token opens, locked, with its organization and the time: `accept` and `decline`
refuse any other token. An expired invitation is marked as such, and the mark is committed before
the exception. -/
def openInvitation (rawToken : RawToken) :
    Db (OrganizationInvitation × Option Organization × Time) := do
  match ← OrganizationInvitationRepository.getByHashForUpdate (hashSecureToken env rawToken) with
  | none => throw (NotFoundError "Invitation not found")
  | some invitation =>
    let organization ← organizationOf invitation
    let t ← now
    if invitation.status ≠ .pending ∨ invitation.revokedAt.isSome then
      throw (NotFoundError "Invitation not found")
    else if invitation.expiresAt ≤ t then
      let _ ← OrganizationInvitationRepository.setExpired invitation
      Prog.commitWork
      throw (NotFoundError "Invitation not found")
    else return (invitation, organization, t)

def accept (user : User) (rawToken : RawToken) : Db InvitationAcceptResponse := do
  let (invitation, organization, t) ← openInvitation env rawToken
  if env.lower user.email ≠ env.lower invitation.email then
    throw (ForbiddenError "Invitation email does not match your account")
  else match ← OrganizationRepository.getMember invitation.organizationId user.id with
    | some _ => throw (ConflictError "You are already a member of this organization")
    | none =>
      let _ ← OrganizationRepository.addMember invitation.organizationId user.id invitation.role
      let _ ← OrganizationInvitationRepository.setAccepted invitation t
      AuditService.recordEventOrFail "organization.invitation.accepted" user.id
        invitation.organizationId "organization_invitation" invitation.id
      match organization with
      | none => throw (.other "AttributeError")
      | some org =>
        return ⟨invitation.organizationId, org.name, invitation.role, "Invitation accepted"⟩

def decline (rawToken : RawToken) : Db Unit := do
  let (invitation, _, t) ← openInvitation env rawToken
  let _ ← OrganizationInvitationRepository.setDeclined invitation t
  AuditService.recordEventOrFail "organization.invitation.declined" none
    invitation.organizationId "organization_invitation" invitation.id

end InvitationService

end DevOps
