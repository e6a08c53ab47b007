import DevOpsAssistant.Repositories.Organizations

/-!
# Roles and permissions

* `Permission`, `ROLE_PERMISSIONS`: what members of an organization may do.
* `OrganizationAuthService`: the checks the services make before they act on an organization.
* `OnboardingService`: the onboarding flags some actions set.
-/

namespace DevOps

open Txn

/-- `Permission`. -/
inductive Permission where
  | organizationRead
  | organizationUpdate
  | organizationDelete
  | memberManage
  | artifactRead
  | artifactWrite
  | policyRead
  | policyManage
  | auditRead
  | taskCancel
  | resourceCreate
deriving DecidableEq

def Permission.all : List Permission :=
  [.organizationRead, .organizationUpdate, .organizationDelete, .memberManage, .artifactRead,
    .artifactWrite, .policyRead, .policyManage, .auditRead, .taskCancel, .resourceCreate]

def ROLE_PERMISSIONS : OrgRole → List Permission
  | .owner => Permission.all
  | .admin =>
    [.organizationRead, .organizationUpdate, .memberManage, .artifactRead, .artifactWrite,
      .policyRead, .policyManage, .auditRead, .taskCancel, .resourceCreate]
  | .member =>
    [.organizationRead, .artifactRead, .artifactWrite, .policyRead, .resourceCreate, .taskCancel]
  | .viewer => [.organizationRead, .artifactRead, .policyRead]

def roleHasPermission (role : OrgRole) (permission : Permission) : Bool :=
  permission ∈ ROLE_PERMISSIONS role

/-- Owners and admins manage members. -/
theorem roleHasPermission_memberManage {role : OrgRole} :
    roleHasPermission role .memberManage = true ↔ role = .owner ∨ role = .admin := by
  cases role <;> decide

namespace OrganizationAuthService

def getMembership (organizationId userId : UUID) : Db (Option OrganizationMember) := do
  scalarOneOrNone (← selectOf (memberOf organizationId userId))

def getActiveOrganization (organizationId : UUID) : Db Organization := do
  match ← scalarOneOrNone (← selectOf (activeOrganization organizationId)) with
  | none => throw (NotFoundError "Organization not found")
  | some org => return org

def requireMembership (organizationId userId : UUID) : Db (Organization × OrganizationMember) := do
  let org ← getActiveOrganization organizationId
  match ← getMembership organizationId userId with
  | none => throw (NotFoundError "Organization not found")
  | some membership => return (org, membership)

def requirePermission (organizationId userId : UUID) (permission : Permission) :
    Db (Organization × OrganizationMember) := do
  let (org, membership) ← requireMembership organizationId userId
  if roleHasPermission membership.role permission then return (org, membership)
  else throw (ForbiddenError "Insufficient organization permissions")

def countOwners (organizationId : UUID) : Db ℕ := do
  let owners ← selectOf (ownerOf organizationId)
  return owners.length

end OrganizationAuthService

namespace OnboardingService

/-- `mark_flag` of the flag that `get` reads and `set` sets. -/
def markFlag (userId : UUID) (get : UserOnboarding → Bool) (set : UserOnboarding → UserOnboarding)
    (hset : ∀ o, Entity.id (set o) = Entity.id o) : Db Unit := do
  let onboarding ← UserOnboardingRepository.getOrCreate userId
  if get onboarding then return ()
  else
    let _ ← updateById userId set hset

/-- `mark_flag` under a handler that logs every exception. A failed flush leaves the session in a
state in which its commit raises. -/
def tryMarkFlag (userId : UUID) (get : UserOnboarding → Bool)
    (set : UserOnboarding → UserOnboarding) (hset : ∀ o, Entity.id (set o) = Entity.id o) : Db Unit :=
  tryCatch (markFlag userId get set hset) fun
    | .integrityError => throw (.other "PendingRollbackError")
    | _ => pure ()

end OnboardingService

end DevOps
