import DevOpsAssistant.Api.Organizations
import DevOpsAssistant.Specs.Accounts

/-!
# What the organization services write besides organizations

One lemma for each function that reads organizations, or writes the audit trail and the onboarding
flags: the statements it sends follow any rules that allow such writes.

* `AllowsSideEffects`: rules that allow lines of the audit trail and onboarding flags.
* `Quiet`: the requests that write no organization, member or invitation; **`only_quiet`**.
-/

namespace DevOps

open Txn

/-- Rules that allow lines of the audit trail and onboarding flags. -/
structure AllowsSideEffects (W : Rules) : Prop where
  audit : ∀ e : AuditEvent, W.insert (toRow e)
  insertOnboarding : ∀ o : UserOnboarding, W.insert (toRow o)
  updateOnboarding : ∀ o o' : UserOnboarding, W.update (toRow o) (toRow o')

variable (env : Env) {W : Rules}

theorem only_recordEventOrFail (hW : AllowsSideEffects W) (action : String)
    (actorUserId organizationId : Option UUID) (resourceType : String) (resourceId : Option UUID) :
    (AuditService.recordEventOrFail action actorUserId organizationId resourceType resourceId).Only
      (Writes W) fun _ => True :=
  only_bind only_uuid4 fun _ => only_bind only_now fun _ => only_insertOf _ _ (hW.audit _)

theorem only_getOrCreate (hW : AllowsSideEffects W) (userId : UUID) :
    (UserOnboardingRepository.getOrCreate userId).Only (Writes W) fun _ => True := by
  refine (only_selectOne _).bind fun found _ => ?_
  cases found with
  | some onboarding => trivial
  | none => exact only_bind (only_insertOf _ _ (hW.insertOnboarding _)) fun _ => trivial

theorem only_markFlag (hW : AllowsSideEffects W) (userId : UUID) (get : UserOnboarding → Bool)
    (set : UserOnboarding → UserOnboarding) (hset : ∀ o, Entity.id (set o) = Entity.id o) :
    (OnboardingService.markFlag userId get set hset).Only (Writes W) fun _ => True := by
  refine only_bind (only_getOrCreate hW userId) fun onboarding => ?_
  split
  · trivial
  · exact only_bind (only_updateById _ hset fun _ _ => hW.updateOnboarding _ _) fun _ => trivial

theorem only_tryMarkFlag (hW : AllowsSideEffects W) (userId : UUID) (get : UserOnboarding → Bool)
    (set : UserOnboarding → UserOnboarding) (hset : ∀ o, Entity.id (set o) = Entity.id o) :
    (OnboardingService.tryMarkFlag userId get set hset).Only (Writes W) fun _ => True := by
  refine only_tryCatch (only_markFlag hW userId get set hset) fun e => ?_
  split <;> trivial

/-! ## Slugs and responses -/

theorem only_normalizeSlug (raw : String) :
    (normalizeSlug env raw).Only (Writes W) fun _ => True := by
  simp only [normalizeSlug]
  split <;> trivial

theorem only_getBySlug (slug : String) :
    (OrganizationRepository.getBySlug slug).Only (Writes W) fun _ => True :=
  (only_selectOne _).mono (fun _ h => h) fun _ _ => trivial

theorem only_updatedSlug (org : Organization) (membership : OrganizationMember)
    (slug : Option String) :
    (OrganizationService.updatedSlug env org membership slug).Only (Writes W) fun _ => True := by
  unfold OrganizationService.updatedSlug
  cases slug with
  | none => trivial
  | some raw =>
    simp only
    split
    · trivial
    · refine only_bind (only_normalizeSlug env raw) fun slug => ?_
      refine only_bind (only_getBySlug slug) fun existing => ?_
      cases existing with
      | none => trivial
      | some existing => simp only; split <;> trivial

theorem only_memberResponse (member : OrganizationMember) :
    (OrganizationService.memberResponse member).Only (Writes W) fun _ => True := by
  refine only_bind ((only_getById _).mono (fun _ h => h) fun _ _ => trivial) fun user => ?_
  split <;> trivial

theorem only_memberResponses : ∀ members : List OrganizationMember,
    (OrganizationService.memberResponses members).Only (Writes W) fun _ => True
  | [] => trivial
  | m :: ms => only_bind (only_memberResponse m) fun _ =>
      only_bind (only_memberResponses ms) fun _ => trivial

theorem only_getMember (organizationId userId : UUID) :
    (OrganizationRepository.getMember organizationId userId).Only (Writes W) fun _ => True :=
  (only_selectOne _).mono (fun _ h => h) fun _ _ => trivial

theorem only_ensureNoMember (organizationId : UUID) (email : String) :
    (InvitationService.ensureNoMember organizationId email).Only (Writes W) fun _ => True := by
  refine only_bind ((only_getByEmail _).mono (fun _ h => h) fun _ _ => trivial) fun user => ?_
  cases user with
  | none => trivial
  | some user =>
    refine only_bind (only_getMember _ _) fun member => ?_
    split <;> trivial

/-! ## Permissions -/

theorem only_getActiveOrganization (organizationId : UUID) :
    (OrganizationAuthService.getActiveOrganization organizationId).Only (Writes W)
      fun _ => True := by
  refine (only_selectOne _).bind fun found _ => ?_
  split <;> trivial

theorem only_requirePermission (organizationId userId : UUID) (permission : Permission) :
    (OrganizationAuthService.requirePermission organizationId userId permission).Only (Writes W)
      fun _ => True := by
  refine only_bind (P := fun _ => True) ?_ fun (org, membership) => ?_
  · refine only_bind (only_getActiveOrganization organizationId) fun org => ?_
    refine (only_selectOne _).bind fun found _ => ?_
    split <;> trivial
  · simp only
    split <;> trivial

/-! ## Requests -/

namespace OrganizationRequest

/-- The request only reads organizations. -/
def Quiet : OrganizationRequest → Prop
  | .list .. | .get .. | .listMembers .. | .listInvitations .. => True
  | _ => False

/-- The token of an invitation that the request presents. -/
def invitationToken : OrganizationRequest → Option RawToken
  | .acceptInvitation _ token | .declineInvitation token => some token
  | _ => none

end OrganizationRequest

namespace BackendRequest

/-- The request writes no organization, member or invitation. -/
def Quiet : BackendRequest → Prop
  | .account _ => True
  | .organization r => r.Quiet

/-- The token of an invitation that the request presents. -/
def invitationToken : BackendRequest → Option RawToken
  | .account _ => none
  | .organization r => r.invitationToken

end BackendRequest

theorem only_listForUser (user : User) (limit offset : ℕ) :
    (OrganizationService.listForUser user limit offset).Only (Writes W) fun _ => True :=
  only_bind (P := fun _ => True)
    (only_bind ((only_selectOf _).mono (fun _ h => h) fun _ _ => trivial) fun _ =>
      only_bind ((only_selectOf _).mono (fun _ h => h) fun _ _ => trivial) fun _ => trivial)
    fun _ => trivial

theorem only_getOrganization (user : User) (organizationId : UUID) :
    (OrganizationService.get user organizationId).Only (Writes W) fun _ => True :=
  only_bind (only_requirePermission _ _ _) fun _ =>
    only_bind (only_getActiveOrganization _) fun _ => trivial

theorem only_listMembers (user : User) (organizationId : UUID) (limit offset : ℕ) :
    (OrganizationService.listMembers user organizationId limit offset).Only (Writes W)
      fun _ => True := by
  refine only_bind (only_requirePermission _ _ _) fun _ => ?_
  refine only_bind (P := fun _ => True) ?_ fun (members, total) =>
    only_bind (only_memberResponses members) fun _ => trivial
  exact only_bind ((only_selectOf _).mono (fun _ h => h) fun _ _ => trivial) fun _ => trivial

theorem only_listForOrganization (user : User) (organizationId : UUID) (limit offset : ℕ) :
    (InvitationService.listForOrganization user organizationId limit offset).Only (Writes W)
      fun _ => True := by
  refine only_bind (only_requirePermission _ _ _) fun _ => ?_
  refine only_bind (P := fun _ => True) ?_ fun _ => trivial
  exact only_bind ((only_selectOf _).mono (fun _ h => h) fun _ _ => trivial) fun _ => trivial

theorem only_quietOrganization : ∀ r : OrganizationRequest, r.Quiet →
    (r.route env).Only (Writes W) fun _ => True
  | .list access limit offset, _ =>
    only_bind (only_getCurrentUser env access) fun _ =>
      only_bind (only_listForUser _ limit offset) fun _ => trivial
  | .get access o, _ =>
    only_bind (only_getCurrentUser env access) fun _ =>
      only_bind (only_getOrganization _ o) fun _ => trivial
  | .listMembers access o limit offset, _ =>
    only_bind (only_getCurrentUser env access) fun _ =>
      only_bind (only_listMembers _ o limit offset) fun _ => trivial
  | .listInvitations access o limit offset, _ =>
    only_bind (only_getCurrentUser env access) fun _ =>
      only_bind (only_listForOrganization _ o limit offset) fun _ => trivial

end DevOps
