import DevOpsAssistant.Repositories.Accounts

/-!
# Repositories of organizations

* `identityMapped`, `flushed`: what a session that has loaded a row before makes of it.
* `OrganizationRepository`: organizations and their members.
* `OrganizationInvitationRepository`: invitations, looked up by id or by the hash of their token.
* `UserOnboardingRepository`.
-/

namespace DevOps

open Txn

variable (env : Env)

/-! ## The identity map -/

section IdentityMap

variable {T : Type} [Entity T]

/-- The object a query gives for `row`: one the session already holds keeps its attributes. -/
def identityMapped (held : List T) (row : T) : T :=
  (held.find? fun t => Entity.id t = Entity.id row).getD row

/-- A column after a flush: it is written when the attribute differs from what was loaded. -/
def flushed {V : Type} [DecidableEq V] (loaded new current : V) : V :=
  if new = loaded then current else new

/-- An attribute that has not been changed stays. -/
@[simp] theorem flushed_self {V : Type} [DecidableEq V] (loaded current : V) :
    flushed loaded loaded current = current := if_pos rfl

/-- An attribute of a row that is as it was loaded. -/
@[simp] theorem flushed_current {V : Type} [DecidableEq V] (loaded new : V) :
    flushed loaded new loaded = new := by
  unfold flushed
  split
  · next h => exact h.symm
  · rfl

end IdentityMap

/-! ## Organizations and members -/

/-- The membership of the user `u` in the organization `o`. -/
def memberOf (o u : UUID) (m : OrganizationMember) : Bool :=
  m.organizationId = o && m.userId = u

/-- An owner of the organization `o`. -/
def ownerOf (o : UUID) (m : OrganizationMember) : Bool :=
  m.organizationId = o && m.role = .owner

theorem ownerOf_eq {o : UUID} {m : OrganizationMember} :
    ownerOf o m = true ↔ m.organizationId = o ∧ m.role = .owner := by
  simp [ownerOf]

theorem memberOf_eq {o u : UUID} {m : OrganizationMember} :
    memberOf o u m = true ↔ m.organizationId = o ∧ m.userId = u := by
  simp [memberOf]

/-- The organization `o`, if it is not deleted. -/
def activeOrganization (o : UUID) (org : Organization) : Bool :=
  org.id = o && org.deletedAt.isNone

namespace OrganizationRepository

def getBySlug (slug : String) : Db (Option Organization) := do
  scalarOneOrNone (← selectOf fun o : Organization => o.slug = slug && o.deletedAt.isNone)

def create (name slug : String) (createdBy : UUID) : Db Organization := do
  let id ← uuid4
  let createdAt ← now
  let updatedAt ← now
  let org : Organization := ⟨id, name, slug, createdBy, createdAt, updatedAt, none⟩
  insertOf (fun o : Organization => o.slug = slug) org
  return org

def addMember (organizationId userId : UUID) (role : OrgRole) : Db OrganizationMember := do
  let id ← uuid4
  let createdAt ← now
  let updatedAt ← now
  let member : OrganizationMember := ⟨id, organizationId, userId, role, createdAt, updatedAt⟩
  insertOf (memberOf organizationId userId) member
  return member

def listForUser (userId : UUID) (limit offset : ℕ) : Db (List Organization × ℕ) := do
  let memberships ← selectOf fun m : OrganizationMember => m.userId = userId
  let orgs ← selectOf fun o : Organization =>
    o.deletedAt.isNone && memberships.any fun m => m.organizationId = o.id
  let sorted := orgs.mergeSort fun a b => b.createdAt ≤ a.createdAt
  return ((sorted.drop offset).take limit, orgs.length)

/-- `org` is the row as the session has loaded it. -/
def update (org : Organization) (name slug : Option String) : Db Organization := do
  let updatedAt ← now
  let newName := name.getD org.name
  let newSlug := slug.getD org.slug
  updateUnique (fun o : Organization => newSlug ≠ org.slug && o.slug = newSlug) org.id
    (fun o : Organization =>
      { o with
        name := flushed org.name newName o.name
        slug := flushed org.slug newSlug o.slug
        updatedAt }) fun _ => rfl

def softDelete (org : Organization) : Db Organization := do
  let deletedAt ← now
  let updatedAt ← now
  updateById org.id (fun o : Organization => { o with deletedAt := some deletedAt, updatedAt })
    fun _ => rfl

def getMember (organizationId userId : UUID) : Db (Option OrganizationMember) := do
  scalarOneOrNone (← selectOf (memberOf organizationId userId))

def listMembers (organizationId : UUID) (limit offset : ℕ) :
    Db (List OrganizationMember × ℕ) := do
  let members ← selectOf fun m : OrganizationMember => m.organizationId = organizationId
  let sorted := members.mergeSort fun a b => a.createdAt ≤ b.createdAt
  return ((sorted.drop offset).take limit, members.length)

/-- The row of a member whose role was loaded as `loaded`, after a flush of `role`. -/
def withRole (loaded role : OrgRole) (updatedAt : Time) (m : OrganizationMember) :
    OrganizationMember :=
  { m with role := flushed loaded role m.role, updatedAt }

def updateMemberRole (member : OrganizationMember) (role : OrgRole) : Db OrganizationMember := do
  let updatedAt ← now
  updateById member.id (withRole member.role role updatedAt) fun _ => rfl

/-- A `DELETE` that finds no row only warns. -/
def removeMember (member : OrganizationMember) : Db Unit := do
  let _ ← deleteOf fun m : OrganizationMember => m.id = member.id
  return ()

end OrganizationRepository

/-! ## Invitations -/

/-- An invitation that `get_active_pending` finds at the time `t`. -/
def activePending (o : UUID) (email : String) (t : Time) (i : OrganizationInvitation) : Bool :=
  i.organizationId = o && i.email = email && i.status = .pending && t < i.expiresAt
    && i.revokedAt.isNone

/-- The invitation `id` of the organization `o`. -/
def invitationOf (id o : UUID) (i : OrganizationInvitation) : Bool :=
  i.id = id && i.organizationId = o

theorem invitationOf_eq {id o : UUID} {i : OrganizationInvitation} :
    invitationOf id o i = true ↔ i.id = id ∧ i.organizationId = o := by
  simp [invitationOf]

theorem activePending_eq {o : UUID} {email : String} {t : Time} {i : OrganizationInvitation} :
    activePending o email t i = true ↔ i.organizationId = o ∧ i.email = email ∧
      i.status = .pending ∧ t < i.expiresAt ∧ i.revokedAt = none := by
  simp [activePending, and_assoc]

namespace OrganizationInvitationRepository

def create (organizationId : UUID) (email : String) (role : OrgRole) (tokenHash : String)
    (invitedByUserId : UUID) (expiresAt : Time) : Db OrganizationInvitation := do
  let id ← uuid4
  let createdAt ← now
  let invitation : OrganizationInvitation :=
    ⟨id, organizationId, env.lower email, role, tokenHash, invitedByUserId, .pending, expiresAt,
      none, none, none, createdAt⟩
  insertOf (fun i : OrganizationInvitation => i.tokenHash = tokenHash) invitation
  return invitation

def getById (invitationId organizationId : UUID) : Db (Option OrganizationInvitation) := do
  scalarOneOrNone (← selectOf (invitationOf invitationId organizationId))

def getByHashForUpdate (tokenHash : String) : Db (Option OrganizationInvitation) := do
  scalarOneOrNone (← lockOf fun i : OrganizationInvitation => i.tokenHash = tokenHash)

def getActivePending (organizationId : UUID) (email : String) :
    Db (Option OrganizationInvitation) := do
  let t ← now
  scalarOneOrNone (← selectOf (activePending organizationId (env.lower email) t))

def listForOrganization (organizationId : UUID) (limit offset : ℕ) :
    Db (List OrganizationInvitation × ℕ) := do
  let invitations ← selectOf fun i : OrganizationInvitation => i.organizationId = organizationId
  let sorted := invitations.mergeSort fun a b => b.createdAt ≤ a.createdAt
  return ((sorted.drop offset).take limit, invitations.length)

def updateToken (invitation : OrganizationInvitation) (tokenHash : String) (expiresAt : Time) :
    Db OrganizationInvitation :=
  updateUnique (fun i : OrganizationInvitation => i.tokenHash = tokenHash) invitation.id
    (fun i : OrganizationInvitation => { i with tokenHash, expiresAt }) fun _ => rfl

/-- The flush of `invitation.status = REVOKED` and `invitation.revoked_at = now`. -/
def setRevoked (invitation : OrganizationInvitation) (t : Time) : Db OrganizationInvitation :=
  updateById invitation.id
    (fun i : OrganizationInvitation => { i with status := .revoked, revokedAt := some t })
    fun _ => rfl

/-- The flush of `invitation.status = ACCEPTED` and `invitation.accepted_at = now`. -/
def setAccepted (invitation : OrganizationInvitation) (t : Time) : Db OrganizationInvitation :=
  updateById invitation.id
    (fun i : OrganizationInvitation => { i with status := .accepted, acceptedAt := some t })
    fun _ => rfl

/-- The flush of `invitation.status = DECLINED` and `invitation.declined_at = now`. -/
def setDeclined (invitation : OrganizationInvitation) (t : Time) : Db OrganizationInvitation :=
  updateById invitation.id
    (fun i : OrganizationInvitation => { i with status := .declined, declinedAt := some t })
    fun _ => rfl

/-- The flush of `invitation.status = EXPIRED`. -/
def setExpired (invitation : OrganizationInvitation) : Db OrganizationInvitation :=
  updateById invitation.id (fun i : OrganizationInvitation => { i with status := .expired })
    fun _ => rfl

end OrganizationInvitationRepository

/-! ## Onboarding flags -/

namespace UserOnboardingRepository

def getForUser (userId : UUID) : Db (Option UserOnboarding) := do
  scalarOneOrNone (← selectOf fun o : UserOnboarding => o.userId = userId)

def getOrCreate (userId : UUID) : Db UserOnboarding := do
  match ← getForUser userId with
  | some onboarding => return onboarding
  | none =>
    let onboarding : UserOnboarding := ⟨userId, false, false, false, false, false⟩
    insertOf (fun _ => false) onboarding
    return onboarding

end UserOnboardingRepository

end DevOps
