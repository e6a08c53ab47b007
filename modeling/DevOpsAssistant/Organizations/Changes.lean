import DevOpsAssistant.Organizations.Requests

/-!
# What an effect changes, table by table

* `Joins`, `MemberOutcome`: members join, get another role, or are removed.
* `InvitationOutcome`: invitations are created, sent again, or closed.
* **`OrgEffect.members`**, **`OrgEffect.invitations`**, `OrgEffect.organization_came`,
  `OrgEffect.organization_kept`: every effect, on one table.
-/

namespace DevOps

open Txn Discipline

section Outcomes

variable (env : Env) (h : Told) (ids : List ℕ) (c : Database)

/-- The request makes `member` a member: `d` are the rows after it. -/
inductive Joins (d : Database) : BackendRequest → OrganizationMember → Prop where
  | created {access name slug} {user : User} {org : Organization} {member : OrganizationMember}
      (signedIn : SignedIn env access user h) (fresh : org.id ∈ ids)
      (row : org ∈ rowsOf Organization d) (creator : org.createdBy = user.id)
      (organization : member.organizationId = org.id)
      (who : member.userId = user.id) (role : member.role = .owner) :
      Joins d (.organization (.create access name slug)) member
  | added {access email} {user : User} {actor member : OrganizationMember}
      (acts : Acts env h access member.organizationId .memberManage user actor)
      (assign : member.role = .owner → actor.role = .owner) :
      Joins d (.organization (.addMember access member.organizationId email member.role)) member
  | accepted {access token} {user : User} {i : OrganizationInvitation} {member : OrganizationMember}
      (signedIn : SignedIn env access user h) (mem : i ∈ rowsOf OrganizationInvitation c)
      (opened : Opened env token i) (email : env.lower user.email = env.lower i.email)
      (organization : member.organizationId = i.organizationId) (who : member.userId = user.id)
      (role : member.role = i.role) :
      Joins d (.organization (.acceptInvitation access token)) member

/-- The session accepts the invitation `i`, which is open and has not expired, for `user`, to whom it was
sent and who is no member. -/
structure InvitationAccepted (access token : RawToken) (user : User) (i : OrganizationInvitation) : Prop where
  signedIn : SignedIn env access user h
  mem : i ∈ rowsOf OrganizationInvitation c
  opened : Opened env token i
  unexpired : ∃ t, .answer .now t ∈ h ∧ t < i.expiresAt
  email : env.lower user.email = env.lower i.email
  missed : Missed (memberOf i.organizationId user.id) h

/-- What a request does to the members: `d` are the rows after it. -/
inductive MemberOutcome (r : BackendRequest) (d : Database) : Prop where
  | same (rows : ∀ m, m ∈ rowsOf OrganizationMember d ↔ m ∈ rowsOf OrganizationMember c)
  | joined {member : OrganizationMember} (fresh : member.id ∈ ids)
      (joins : Joins env h ids c d r member)
      (rows : ∀ m, m ∈ rowsOf OrganizationMember d ↔
        m = member ∨ (m ∈ rowsOf OrganizationMember c ∧ m.id ≠ member.id))
  | reassigned {access o u role} {user : User} {actor target row : OrganizationMember} {t : Time}
      (request : r = .organization (.updateMember access o u role))
      (acts : Acts env h access o .memberManage user actor) (saw : Saw (memberOf o u) target h)
      (manage : actor.role = .owner ∨ (target.role ≠ .owner ∧ role ≠ .owner))
      (final : target.role = .owner → role ≠ .owner → CountedAfter o u target h)
      (mem : row ∈ rowsOf OrganizationMember c) (hid : row.id = target.id)
      (rows : ∀ m, m ∈ rowsOf OrganizationMember d ↔
        m = OrganizationRepository.withRole target.role role t row ∨
          (m ∈ rowsOf OrganizationMember c ∧ m.id ≠ row.id))
  | dismissed {access o u} {user : User} {actor target row : OrganizationMember}
      (request : r = .organization (.removeMember access o u))
      (acts : Acts env h access o .memberManage user actor) (saw : Saw (memberOf o u) target h)
      (manage : actor.role = .owner ∨ target.role ≠ .owner)
      (final : target.role = .owner → CountedAfter o u target h)
      (mem : row ∈ rowsOf OrganizationMember c) (hid : row.id = target.id)
      (rows : ∀ m, m ∈ rowsOf OrganizationMember d ↔
        m ∈ rowsOf OrganizationMember c ∧ m.id ≠ row.id)

/-- What a request does to the invitations: `d` are the rows after it. -/
inductive InvitationOutcome (r : BackendRequest) (d : Database) : Prop where
  | same (rows : ∀ i, i ∈ rowsOf OrganizationInvitation d ↔ i ∈ rowsOf OrganizationInvitation c)
  | invited {access email} {user : User} {actor : OrganizationMember} {i : OrganizationInvitation}
      {t : Time} (request : r = .organization (.createInvitation access i.organizationId email i.role))
      (acts : Acts env h access i.organizationId .memberManage user actor)
      (assign : i.role = .owner → actor.role = .owner) (fresh : i.id ∈ ids)
      (asked : .answer .now t ∈ h) (missed : Missed (activePending i.organizationId i.email t) h)
      (rows : ∀ j, j ∈ rowsOf OrganizationInvitation d ↔
        j = i ∨ (j ∈ rowsOf OrganizationInvitation c ∧ j.id ≠ i.id))
  | resent {access o} {i : OrganizationInvitation} {tokenHash : String} {expiresAt : Time}
      (request : r = .organization (.resendInvitation access o i.id)) (saw : SawPending i.id o h)
      (mem : i ∈ rowsOf OrganizationInvitation c)
      (rows : ∀ j, j ∈ rowsOf OrganizationInvitation d ↔
        j = { i with tokenHash := tokenHash, expiresAt := expiresAt } ∨
          (j ∈ rowsOf OrganizationInvitation c ∧ j.id ≠ i.id))
  | revoked {access o} {i : OrganizationInvitation} {t : Time}
      (request : r = .organization (.revokeInvitation access o i.id)) (saw : SawPending i.id o h)
      (mem : i ∈ rowsOf OrganizationInvitation c)
      (rows : ∀ j, j ∈ rowsOf OrganizationInvitation d ↔
        j = { i with status := .revoked, revokedAt := some t } ∨
          (j ∈ rowsOf OrganizationInvitation c ∧ j.id ≠ i.id))
  | answered {token} {i : OrganizationInvitation} {status : InvitationStatus}
      {acceptedAt declinedAt : Option Time} (presents : r.invitationToken = some token)
      (mem : i ∈ rowsOf OrganizationInvitation c) (opened : Opened env token i)
      (closed : status ≠ .pending)
      (rows : ∀ j, j ∈ rowsOf OrganizationInvitation d ↔
        j = { i with status := status, acceptedAt := acceptedAt, declinedAt := declinedAt } ∨
          (j ∈ rowsOf OrganizationInvitation c ∧ j.id ≠ i.id))

end Outcomes

section Effects

variable {env : Env} {h : Told} {ids : List ℕ} {c : Database} {r : BackendRequest}
  {ws : List (Write Row Key)}

/-- **Every effect, on members.** -/
theorem OrgEffect.members (e : OrgEffect env h ids c r ws) :
    MemberOutcome env h ids c r (c.apply ws) := by
  have hother : ∀ {T : Type} [Entity T] (t : T), Entity.table OrganizationMember ≠ Entity.table T →
      ∀ m, m ∈ rowsOf OrganizationMember (c.apply [.store (toRow t)]) ↔
        m ∈ rowsOf OrganizationMember c := fun t hne m => mem_rowsOf_store_other hne
  cases e with
  | quiet | removeMissing => exact .same fun _ => Iff.rfl
  | create signedIn fresh memberFresh active creator organization owner role =>
    refine .joined memberFresh (.created signedIn fresh ?_ creator organization owner role) fun m => ?_
    · exact (mem_rowsOf_store_other (by decide)).mpr (mem_rowsOf_store.mpr (.inl rfl))
    · refine mem_rowsOf_store.trans (or_congr_right (and_congr_left' ?_))
      exact mem_rowsOf_store_other (by decide)
  | update | delete | createInvitation | resend | revoke | decline | expire =>
    exact .same (hother _ (by decide))
  | addMember acts assign fresh organization hrole =>
    subst organization hrole
    exact .joined fresh (.added acts assign) fun m => mem_rowsOf_store
  | updateMember acts saw manage final mem hid =>
    exact .reassigned rfl acts saw manage final mem hid fun m => mem_rowsOf_store
  | removeMember acts saw manage final mem hid =>
    exact .dismissed rfl acts saw manage final mem hid fun m => mem_rowsOf_delete
  | accept signedIn mem opened asked unexpired email missed fresh organization who hrole =>
    refine .joined fresh (.accepted signedIn mem opened email organization who hrole) fun m => ?_
    exact (mem_rowsOf_store_other (by decide)).trans mem_rowsOf_store

/-- Who becomes a member by an invitation accepted it while it was open. -/
theorem OrgEffect.accepted {access token : RawToken}
    (e : OrgEffect env h ids c (.organization (.acceptInvitation access token)) ws)
    {m : OrganizationMember} (hm : m ∈ rowsOf OrganizationMember (c.apply ws)) :
    m ∈ rowsOf OrganizationMember c ∨
      ∃ user i, InvitationAccepted env h c access token user i ∧ m.organizationId = i.organizationId := by
  cases e with
  | quiet => exact .inl hm
  | accept signedIn mem opened asked unexpired email missed fresh organization =>
    rcases mem_rowsOf_store.mp ((mem_rowsOf_store_other (by decide)).mp hm) with rfl | ⟨hm, -⟩
    · exact .inr ⟨_, _, ⟨signedIn, mem, opened, ⟨_, asked, unexpired⟩, email, missed⟩, organization⟩
    · exact .inl hm
  | expire => exact .inl ((mem_rowsOf_store_other (by decide)).mp hm)

/-- **Every effect, on invitations.** -/
theorem OrgEffect.invitations (e : OrgEffect env h ids c r ws) :
    InvitationOutcome env h ids c r (c.apply ws) := by
  have hother : ∀ {T : Type} [Entity T] (t : T),
      Entity.table OrganizationInvitation ≠ Entity.table T →
      ∀ i, i ∈ rowsOf OrganizationInvitation (c.apply [.store (toRow t)]) ↔
        i ∈ rowsOf OrganizationInvitation c := fun t hne i => mem_rowsOf_store_other hne
  cases e with
  | quiet | removeMissing => exact .same fun _ => Iff.rfl
  | create =>
    exact .same fun i => (mem_rowsOf_store_other (by decide)).trans
      (mem_rowsOf_store_other (by decide))
  | update | delete | addMember | updateMember => exact .same (hother _ (by decide))
  | removeMember => exact .same fun i => mem_rowsOf_delete_other (by decide)
  | createInvitation acts assign fresh organization hrole asked missed =>
    subst organization hrole
    exact .invited rfl acts assign fresh asked missed fun j => mem_rowsOf_store
  | resend acts saw mem hid =>
    subst hid
    exact .resent rfl saw mem fun j => mem_rowsOf_store
  | revoke acts saw mem hid =>
    subst hid
    exact .revoked rfl saw mem fun j => mem_rowsOf_store
  | accept signedIn mem opened =>
    refine .answered rfl mem opened ?_ fun j => mem_rowsOf_store.trans
      (or_congr_right (and_congr_left' (mem_rowsOf_store_other (by decide))))
    decide
  | decline mem opened =>
    refine .answered rfl mem opened ?_ fun j => mem_rowsOf_store
    decide
  | expire presents mem opened =>
    refine .answered presents mem opened ?_ fun j => mem_rowsOf_store
    decide

/-- An organization after an effect was there before, or the effect created it with its owner. -/
theorem OrgEffect.organization_came (e : OrgEffect env h ids c r ws) {org : Organization}
    (ho : org ∈ rowsOf Organization (c.apply ws)) :
    (∃ org₀ ∈ rowsOf Organization c, org₀.id = org.id ∧
        (org.deletedAt = none → org₀.deletedAt = none)) ∨
      (org.id ∈ ids ∧ ∃ m ∈ rowsOf OrganizationMember (c.apply ws), ownerOf org.id m = true ∧
        m.id ∈ ids) := by
  have hsame : org ∈ rowsOf Organization c → ∃ org₀ ∈ rowsOf Organization c, org₀.id = org.id ∧
      (org.deletedAt = none → org₀.deletedAt = none) := fun hm => ⟨org, hm, rfl, id⟩
  cases e with
  | quiet | removeMissing => exact .inl (hsame ho)
  | create signedIn fresh memberFresh active creator organization owner role =>
    rcases mem_rowsOf_store.mp ((mem_rowsOf_store_other (by decide)).mp ho) with rfl | ⟨ho, -⟩
    · exact .inr ⟨fresh, _, mem_rowsOf_store.mpr (.inl rfl), by simp [ownerOf, organization, role],
        memberFresh⟩
    · exact .inl (hsame ho)
  | update mem same creator deleted =>
    rcases mem_rowsOf_store.mp ho with rfl | ⟨ho, -⟩
    · exact .inl ⟨_, mem, same.symm, fun hd => deleted ▸ hd⟩
    · exact .inl (hsame ho)
  | delete acts mem hid =>
    rcases mem_rowsOf_store.mp ho with rfl | ⟨ho, -⟩
    · exact .inl ⟨_, mem, rfl, fun hd => by cases hd⟩
    · exact .inl (hsame ho)
  | addMember | updateMember | createInvitation | resend | revoke | decline | expire =>
    exact .inl (hsame ((mem_rowsOf_store_other (by decide)).mp ho))
  | removeMember => exact .inl (hsame ((mem_rowsOf_delete_other (by decide)).mp ho))
  | accept =>
    exact .inl (hsame ((mem_rowsOf_store_other (by decide)).mp
      ((mem_rowsOf_store_other (by decide)).mp ho)))

/-- A deleted organization stays deleted. -/
theorem OrgEffect.deleted_kept (e : OrgEffect env h ids c r ws)
    (hu : ∀ n ∈ ids, ∀ r ∈ c.rows, n ∉ orgDiscipline.names r) {org : Organization}
    (ho : org ∈ rowsOf Organization c) (hd : org.deletedAt.isSome = true) :
    ∃ org' ∈ rowsOf Organization (c.apply ws), org'.id = org.id ∧ org'.deletedAt.isSome = true := by
  have hstored : ∀ {row row' : Organization}, row ∈ rowsOf Organization c → row'.id = row.id →
      (row.deletedAt.isSome = true → row'.deletedAt.isSome = true) →
      ∃ org' ∈ rowsOf Organization (c.apply [.store (toRow row')]), org'.id = org.id ∧
        org'.deletedAt.isSome = true := by
    intro row row' hrow hid hdel
    by_cases hne : org.id = row'.id
    · obtain rfl : org = row := entity_ext ho hrow (hne.trans hid)
      exact ⟨row', mem_rowsOf_store.mpr (.inl rfl), hid, hdel hd⟩
    · exact ⟨org, mem_rowsOf_store.mpr (.inr ⟨ho, hne⟩), rfl, hd⟩
  cases e with
  | quiet | removeMissing => exact ⟨org, ho, rfl, hd⟩
  | @create _ _ _ _ new _ signedIn fresh memberFresh active creator organization owner role =>
    refine ⟨org, (mem_rowsOf_store_other (by decide)).mpr (mem_rowsOf_store.mpr (.inr ⟨ho, ?_⟩)),
      rfl, hd⟩
    -- the new organization has a new identifier
    exact fun hid => hu _ fresh (toRow org) (mem_rowsOf.mp ho) (mem_orgNames.mpr ⟨rfl, hid.symm⟩)
  | update mem same creator deleted => exact hstored mem same fun hd => by rw [deleted]; exact hd
  | delete acts mem hid => exact hstored mem rfl fun _ => rfl
  | addMember | updateMember | createInvitation | resend | revoke | decline | expire =>
    exact ⟨org, (mem_rowsOf_store_other (by decide)).mpr ho, rfl, hd⟩
  | removeMember => exact ⟨org, (mem_rowsOf_delete_other (by decide)).mpr ho, rfl, hd⟩
  | accept =>
    exact ⟨org, (mem_rowsOf_store_other (by decide)).mpr
      ((mem_rowsOf_store_other (by decide)).mpr ho), rfl, hd⟩

theorem MemberOutcome.congr {d d' : Database} (o : MemberOutcome env h ids c r d)
    (hd : ∀ m, m ∈ rowsOf OrganizationMember d' ↔ m ∈ rowsOf OrganizationMember d)
    (horg : ∀ org ∈ rowsOf Organization d, org ∈ rowsOf Organization d') :
    MemberOutcome env h ids c r d' := by
  cases o with
  | same rows => exact .same fun m => (hd m).trans (rows m)
  | joined fresh joins rows =>
    refine .joined fresh ?_ fun m => (hd m).trans (rows m)
    cases joins with
    | created signedIn fresh row creator organization who role =>
      exact .created signedIn fresh (horg _ row) creator organization who role
    | added acts assign => exact .added acts assign
    | accepted signedIn mem opened email organization who role =>
      exact .accepted signedIn mem opened email organization who role
  | reassigned request acts saw manage final mem hid rows =>
    exact .reassigned request acts saw manage final mem hid fun m => (hd m).trans (rows m)
  | dismissed request acts saw manage final mem hid rows =>
    exact .dismissed request acts saw manage final mem hid fun m => (hd m).trans (rows m)

theorem InvitationOutcome.congr {d d' : Database} (o : InvitationOutcome env h ids c r d)
    (hd : ∀ i, i ∈ rowsOf OrganizationInvitation d' ↔ i ∈ rowsOf OrganizationInvitation d) :
    InvitationOutcome env h ids c r d' := by
  cases o with
  | same rows => exact .same fun i => (hd i).trans (rows i)
  | invited request acts assign fresh asked missed rows =>
    exact .invited request acts assign fresh asked missed fun i => (hd i).trans (rows i)
  | resent request saw mem rows => exact .resent request saw mem fun i => (hd i).trans (rows i)
  | revoked request saw mem rows => exact .revoked request saw mem fun i => (hd i).trans (rows i)
  | answered presents mem opened closed rows =>
    exact .answered presents mem opened closed fun i => (hd i).trans (rows i)

end Effects

end DevOps
