import DevOpsAssistant.Services.Audit
import DevOpsAssistant.Services.OrganizationAuthService

/-!
# Organizations and their members

* `normalizeSlug`: the slug made of a name.
* `OrganizationService`: organizations are created, renamed and deleted; members are added, given
  another role and removed.
-/

namespace DevOps

open Txn

variable (env : Env)

/-! ## Slugs -/

/-- A character a slug may contain. -/
def isSlugChar (c : Char) : Bool :=
  (decide ('a' ≤ c) && decide (c ≤ 'z')) || (decide ('0' ≤ c) && decide (c ≤ '9')) || c == '-'

/-- Every run of hyphens becomes one hyphen. -/
def collapseHyphens : List Char → List Char
  | '-' :: '-' :: cs => collapseHyphens ('-' :: cs)
  | c :: cs => c :: collapseHyphens cs
  | [] => []

/-- `strip("-")`. -/
def stripHyphens (cs : List Char) : List Char :=
  ((cs.dropWhile (· == '-')).reverse.dropWhile (· == '-')).reverse

/-- The characters of the slug made of `raw`. -/
def slugChars (raw : String) : List Char :=
  let hyphened := (env.lower (env.strip raw)).toList.map fun c => if c = ' ' then '-' else c
  stripHyphens (collapseHyphens (hyphened.map fun c => if isSlugChar c then c else '-'))

def normalizeSlug (raw : String) : Db String :=
  let slug := slugChars env raw
  if slug.isEmpty || !slug.all isSlugChar then
    throw (ValidationAppError "Slug must contain only lowercase letters, numbers, and hyphens")
  else pure (String.ofList slug)

/-! ## Responses -/

/-- `OrganizationResponse`. -/
structure OrganizationResponse where
  id : UUID
  name : String
  slug : String
  createdBy : UUID
  createdAt : Time
  updatedAt : Time

/-- `_to_org_response`. -/
def OrganizationResponse.ofOrganization (o : Organization) : OrganizationResponse :=
  ⟨o.id, o.name, o.slug, o.createdBy, o.createdAt, o.updatedAt⟩

/-- `OrganizationMemberResponse`. -/
structure OrganizationMemberResponse where
  id : UUID
  organizationId : UUID
  userId : UUID
  role : OrgRole
  email : String
  username : String
  createdAt : Time
  updatedAt : Time

/-- `_to_member_response`, of a member and its `user`. -/
def OrganizationMemberResponse.ofMember (m : OrganizationMember) (u : User) :
    OrganizationMemberResponse :=
  ⟨m.id, m.organizationId, m.userId, m.role, u.email, u.username, m.createdAt, m.updatedAt⟩

/-- A page of a list and the length of the list. -/
structure Page (α : Type) where
  items : List α
  total : ℕ

namespace OrganizationService

/-! ## Organizations -/

def create (user : User) (name : String) (slug : Option String) : Db OrganizationResponse := do
  -- an empty slug counts as none
  let raw := match slug with
    | some s => if s = "" then name else s
    | none => name
  let slug ← normalizeSlug env raw
  match ← OrganizationRepository.getBySlug slug with
  | some _ => throw (ConflictError "Organization slug already taken")
  | none =>
    let org ← OrganizationRepository.create (env.strip name) slug user.id
    let _ ← OrganizationRepository.addMember org.id user.id .owner
    AuditService.recordEventOrFail "organization.created" user.id org.id "organization" org.id
    OnboardingService.tryMarkFlag user.id (·.organizationCreated)
      (fun o => { o with organizationCreated := true }) fun _ => rfl
    return .ofOrganization org

def listForUser (user : User) (limit offset : ℕ) : Db (Page OrganizationResponse) := do
  let (orgs, total) ← OrganizationRepository.listForUser user.id limit offset
  return ⟨orgs.map .ofOrganization, total⟩

def get (user : User) (organizationId : UUID) : Db OrganizationResponse := do
  let _ ← OrganizationAuthService.requirePermission organizationId user.id .organizationRead
  let org ← OrganizationAuthService.getActiveOrganization organizationId
  return .ofOrganization org

/-- The slug an update stores, if it is to change: only owners change it. -/
def updatedSlug (org : Organization) (membership : OrganizationMember) (slug : Option String) :
    Db (Option String) := do
  match slug with
  | none => return none
  | some raw =>
    if membership.role ≠ .owner then
      throw (ForbiddenError "Only owners may change the organization slug")
    else
      let slug ← normalizeSlug env raw
      match ← OrganizationRepository.getBySlug slug with
      | none => return some slug
      | some existing =>
        if existing.id ≠ org.id then throw (ConflictError "Organization slug already taken")
        else return some slug

def update (user : User) (organizationId : UUID) (name slug : Option String) :
    Db OrganizationResponse := do
  let (org, membership) ←
    OrganizationAuthService.requirePermission organizationId user.id .organizationUpdate
  if name.isNone && slug.isNone then
    throw (ValidationAppError "At least one field must be provided")
  else
    let slug ← updatedSlug env org membership slug
    let updated ← OrganizationRepository.update org (name.map env.strip) slug
    AuditService.recordEventOrFail "organization.updated" user.id org.id "organization" org.id
    return .ofOrganization updated

def delete (user : User) (organizationId : UUID) : Db Unit := do
  let (org, _) ←
    OrganizationAuthService.requirePermission organizationId user.id .organizationDelete
  let _ ← OrganizationRepository.softDelete org
  AuditService.recordEventOrFail "organization.deleted" user.id org.id "organization" org.id

/-! ## Members -/

/-- The response about a member, with the user row loaded beside it. -/
def memberResponse (member : OrganizationMember) : Db OrganizationMemberResponse := do
  match ← UserRepository.getById member.userId with
  | none => throw (.other "AttributeError")
  | some user => return .ofMember member user

def memberResponses : List OrganizationMember → Db (List OrganizationMemberResponse)
  | [] => pure []
  | m :: ms => do
    let response ← memberResponse m
    return response :: (← memberResponses ms)

def listMembers (user : User) (organizationId : UUID) (limit offset : ℕ) :
    Db (Page OrganizationMemberResponse) := do
  let _ ← OrganizationAuthService.requirePermission organizationId user.id .organizationRead
  let (members, total) ← OrganizationRepository.listMembers organizationId limit offset
  return ⟨← memberResponses members, total⟩

/-- `_ensure_can_manage_target`. -/
def ensureCanManageTarget (actor target : OrganizationMember) (assigningRole : Option OrgRole) :
    Db Unit :=
  if actor.role = .admin then
    if target.role = .owner then throw (ForbiddenError "Admins cannot modify owners")
    else if assigningRole = some .owner then
      throw (ForbiddenError "Admins cannot assign the owner role")
    else pure ()
  else pure ()

def addMember (user : User) (organizationId : UUID) (email : String) (role : OrgRole) :
    Db OrganizationMemberResponse := do
  let (_, actor) ← OrganizationAuthService.requirePermission organizationId user.id .memberManage
  if role = .owner ∧ actor.role ≠ .owner then
    throw (ForbiddenError "Only owners may assign the owner role")
  else match ← UserRepository.getByEmail (env.lower email) with
    | none => throw (NotFoundError "User not found")
    | some targetUser =>
      match ← OrganizationRepository.getMember organizationId targetUser.id with
      | some _ => throw (ConflictError "User is already a member of this organization")
      | none =>
        let member ← OrganizationRepository.addMember organizationId targetUser.id role
        AuditService.recordEventOrFail "organization.member.added" user.id organizationId
          "organization_member" member.id
        return .ofMember member (identityMapped [user] targetUser)

/-- The check that an organization keeps an owner when `target` loses the role of an owner. -/
def keepFinalOwner (organizationId : UUID) (target : OrganizationMember) (loses : Bool)
    (message : String) : Db Unit := do
  if target.role = .owner ∧ loses then
    let ownerCount ← OrganizationAuthService.countOwners organizationId
    if ownerCount ≤ 1 then throw (ForbiddenError message) else return ()
  else return ()

def updateMember (user : User) (organizationId targetUserId : UUID) (role : OrgRole) :
    Db OrganizationMemberResponse := do
  let (_, actor) ← OrganizationAuthService.requirePermission organizationId user.id .memberManage
  match ← OrganizationRepository.getMember organizationId targetUserId with
  | none => throw (NotFoundError "Member not found")
  | some row =>
    let target := identityMapped [actor] row
    ensureCanManageTarget actor target (some role)
    keepFinalOwner organizationId target (role ≠ .owner) "Cannot demote the final owner"
    if role = .owner ∧ actor.role ≠ .owner then
      throw (ForbiddenError "Only owners may assign the owner role")
    else
      let updated ← OrganizationRepository.updateMemberRole target role
      AuditService.recordEventOrFail "organization.member.role_changed" user.id organizationId
        "organization_member" updated.id
      memberResponse updated

def removeMember (user : User) (organizationId targetUserId : UUID) : Db Unit := do
  let (_, actor) ← OrganizationAuthService.requirePermission organizationId user.id .memberManage
  match ← OrganizationRepository.getMember organizationId targetUserId with
  | none => throw (NotFoundError "Member not found")
  | some row =>
    let target := identityMapped [actor] row
    ensureCanManageTarget actor target none
    keepFinalOwner organizationId target true "Cannot remove the final owner"
    OrganizationRepository.removeMember target
    AuditService.recordEventOrFail "organization.member.removed" user.id organizationId
      "organization_member" target.id

end OrganizationService

end DevOps
