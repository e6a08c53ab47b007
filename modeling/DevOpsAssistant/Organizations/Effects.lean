import DevOpsAssistant.Specs.Histories
import DevOpsAssistant.Specs.Organizations

/-!
# What requests do to organizations

* `orgTables`, `orgDiscipline`: organizations, members and invitations; a membership keeps its
  organization and its user.
* `Acts`, `CountedAfter`: what a session has been told about the rights of its user.
* `OrgEffect`: the writes to these tables that a request commits, with what the session had been told.
* `Owing`: a session whose writes are such an effect; **`Owing.extends`**, **`commitOk_of_owing`**.
-/

namespace DevOps

open Txn Discipline

/-- The tables of organizations, members and invitations. -/
def orgTables : TableName → Bool
  | .organizations | .organizationMembers | .organizationInvitations => true
  | _ => false

/-- A membership keeps its organization and its user. -/
def MembersKept (c d : Database) : Prop :=
  ∀ m ∈ rowsOf OrganizationMember c, ∀ m' ∈ rowsOf OrganizationMember d, m.id = m'.id →
    m'.organizationId = m.organizationId ∧ m'.userId = m.userId

/-- What sessions assume of organizations while others run. -/
def orgDiscipline : Discipline Row where
  inv _ := True
  follows := MembersKept
  names r := if orgTables r.table then [r.id] else []
  follows_refl := by
    intro c _ m hm m' hm' hid
    rw [entity_ext hm hm' hid]
    exact ⟨rfl, rfl⟩

theorem mem_orgNames {r : Row} {n : ℕ} :
    n ∈ orgDiscipline.names r ↔ orgTables r.table = true ∧ n = r.id := by
  change n ∈ (if orgTables r.table then [r.id] else []) ↔ _
  split <;> simp_all

/-- A row that is committed has no identifier that an open transaction has drawn. -/
theorem not_fresh_of_committed {ids : List ℕ} {c : Database}
    (hu : ∀ n ∈ ids, ∀ r ∈ c.rows, n ∉ orgDiscipline.names r)
    {T : Type} [Entity T] (hT : orgTables (Entity.table T) = true) {t : T} (ht : t ∈ rowsOf T c) :
    Entity.id t ∉ ids := fun hn =>
  hu _ hn (toRow t) (mem_rowsOf.mp ht)
    (mem_orgNames.mpr ⟨by rw [Entity.table_toRow, hT], rfl⟩)

/-! ## What a session has been told -/

/-- The user of the access token acts on the organization `o`, with the rights of `actor`. -/
structure Acts (env : Env) (h : Told) (access : RawToken) (o : UUID) (permission : Permission)
    (user : User) (actor : OrganizationMember) : Prop where
  signedIn : SignedIn env access user h
  active : ∃ org, Saw (activeOrganization o) org h
  member : Saw (memberOf o user.id) actor h
  allowed : roleHasPermission actor.role permission = true

theorem Acts.mono {env : Env} {h h' : Told} {access : RawToken} {o : UUID} {permission : Permission}
    {user : User} {actor : OrganizationMember} (a : Acts env h access o permission user actor)
    (g : ToldMore h h') : Acts env h' access o permission user actor := by
  obtain ⟨org, horg⟩ := a.active
  exact ⟨a.signedIn.mono g, ⟨org, horg.mono g⟩, a.member.mono g, a.allowed⟩

/-- After it had read the membership `target` of `u` in `o`, the session counted two owners of `o` or
more. -/
def CountedAfter (o u : UUID) (target : OrganizationMember) (h : Told) : Prop :=
  ∃ es c h₀ m m', h = es ++ .read (fun r => (ofRow r).any (ownerOf o)) c :: h₀ ∧
    Saw (memberOf o u) target h₀ ∧ m ∈ rowsOf OrganizationMember c ∧ ownerOf o m = true ∧
    m' ∈ rowsOf OrganizationMember c ∧ ownerOf o m' = true ∧ m.id ≠ m'.id

theorem CountedAfter.mono {o u : UUID} {target : OrganizationMember} {h h' : Told}
    (hc : CountedAfter o u target h) (g : ToldMore h h') : CountedAfter o u target h' := by
  obtain ⟨es, c, h₀, m, m', rfl, hm⟩ := hc
  obtain ⟨fs, rfl, -⟩ := g
  exact ⟨fs ++ es, c, h₀, m, m', by rw [List.append_assoc], hm⟩

/-- The session has read a pending invitation. -/
def SawPending (id o : UUID) (h : Told) : Prop :=
  ∃ i, Saw (invitationOf id o) i h ∧ i.status = .pending

theorem SawPending.mono {id o : UUID} {h h' : Told} (hs : SawPending id o h) (g : ToldMore h h') :
    SawPending id o h' := by
  obtain ⟨i, hi, hp⟩ := hs
  exact ⟨i, hi.mono g, hp⟩

/-- The token was sent with the invitation `i`, which is neither answered nor revoked. -/
structure Opened (env : Env) (token : RawToken) (i : OrganizationInvitation) : Prop where
  token : i.tokenHash = hashSecureToken env token
  pending : i.status = .pending
  unrevoked : i.revokedAt = none

/-! ## Effects -/

/-- The writes to organizations, members and invitations that a request commits: `h` is what its
session has been told, `ids` are the identifiers it has drawn, `c` the committed rows. -/
inductive OrgEffect (env : Env) (h : Told) (ids : List ℕ) (c : Database) :
    BackendRequest → List (Write Row Key) → Prop where
  | quiet {r : BackendRequest} (hr : r.Quiet) : OrgEffect env h ids c r []
  | create {access name slug} {user : User} {org : Organization} {member : OrganizationMember}
      (signedIn : SignedIn env access user h) (fresh : org.id ∈ ids) (memberFresh : member.id ∈ ids)
      (active : org.deletedAt = none) (creator : org.createdBy = user.id)
      (organization : member.organizationId = org.id) (owner : member.userId = user.id)
      (role : member.role = .owner) :
      OrgEffect env h ids c (.organization (.create access name slug))
        [.store (toRow org), .store (toRow member)]
  | update {access o name slug} {row row' : Organization} (mem : row ∈ rowsOf Organization c)
      (same : row'.id = row.id) (creator : row'.createdBy = row.createdBy)
      (deleted : row'.deletedAt = row.deletedAt) :
      OrgEffect env h ids c (.organization (.update access o name slug)) [.store (toRow row')]
  | delete {access o} {user : User} {actor : OrganizationMember} {row : Organization} {t t' : Time}
      (acts : Acts env h access o .organizationDelete user actor)
      (mem : row ∈ rowsOf Organization c) (hid : row.id = o) :
      OrgEffect env h ids c (.organization (.delete access o))
        [.store (toRow { row with deletedAt := some t, updatedAt := t' })]
  | addMember {access o email role} {user : User} {actor member : OrganizationMember}
      (acts : Acts env h access o .memberManage user actor)
      (assign : role = .owner → actor.role = .owner) (fresh : member.id ∈ ids)
      (organization : member.organizationId = o) (hrole : member.role = role) :
      OrgEffect env h ids c (.organization (.addMember access o email role)) [.store (toRow member)]
  | updateMember {access o u role} {user : User} {actor target row : OrganizationMember} {t : Time}
      (acts : Acts env h access o .memberManage user actor) (saw : Saw (memberOf o u) target h)
      (manage : actor.role = .owner ∨ (target.role ≠ .owner ∧ role ≠ .owner))
      (final : target.role = .owner → role ≠ .owner → CountedAfter o u target h)
      (mem : row ∈ rowsOf OrganizationMember c) (hid : row.id = target.id) :
      OrgEffect env h ids c (.organization (.updateMember access o u role))
        [.store (toRow (OrganizationRepository.withRole target.role role t row))]
  | removeMember {access o u} {user : User} {actor target row : OrganizationMember}
      (acts : Acts env h access o .memberManage user actor) (saw : Saw (memberOf o u) target h)
      (manage : actor.role = .owner ∨ target.role ≠ .owner)
      (final : target.role = .owner → CountedAfter o u target h)
      (mem : row ∈ rowsOf OrganizationMember c) (hid : row.id = target.id) :
      OrgEffect env h ids c (.organization (.removeMember access o u)) [.delete (keyOf row)]
  | removeMissing {access o u} :
      OrgEffect env h ids c (.organization (.removeMember access o u)) []
  | createInvitation {access o email role} {user : User} {actor : OrganizationMember}
      {i : OrganizationInvitation} {t : Time}
      (acts : Acts env h access o .memberManage user actor)
      (assign : role = .owner → actor.role = .owner) (fresh : i.id ∈ ids)
      (organization : i.organizationId = o) (hrole : i.role = role) (asked : .answer .now t ∈ h)
      (missed : Missed (activePending o i.email t) h) :
      OrgEffect env h ids c (.organization (.createInvitation access o email role))
        [.store (toRow i)]
  | resend {access o id} {user : User} {actor : OrganizationMember} {i : OrganizationInvitation}
      {tokenHash : String} {expiresAt : Time}
      (acts : Acts env h access o .memberManage user actor) (saw : SawPending id o h)
      (mem : i ∈ rowsOf OrganizationInvitation c) (hid : i.id = id) :
      OrgEffect env h ids c (.organization (.resendInvitation access o id))
        [.store (toRow { i with tokenHash := tokenHash, expiresAt := expiresAt })]
  | revoke {access o id} {user : User} {actor : OrganizationMember} {i : OrganizationInvitation}
      {t : Time} (acts : Acts env h access o .memberManage user actor) (saw : SawPending id o h)
      (mem : i ∈ rowsOf OrganizationInvitation c) (hid : i.id = id) :
      OrgEffect env h ids c (.organization (.revokeInvitation access o id))
        [.store (toRow { i with status := .revoked, revokedAt := some t })]
  | accept {access token} {user : User} {i : OrganizationInvitation} {member : OrganizationMember}
      {t : Time} (signedIn : SignedIn env access user h)
      (mem : i ∈ rowsOf OrganizationInvitation c) (opened : Opened env token i)
      (asked : .answer .now t ∈ h) (unexpired : t < i.expiresAt)
      (email : env.lower user.email = env.lower i.email)
      (missed : Missed (memberOf i.organizationId user.id) h) (fresh : member.id ∈ ids)
      (organization : member.organizationId = i.organizationId) (who : member.userId = user.id)
      (hrole : member.role = i.role) :
      OrgEffect env h ids c (.organization (.acceptInvitation access token))
        [.store (toRow member),
          .store (toRow { i with status := .accepted, acceptedAt := some t })]
  | decline {token} {i : OrganizationInvitation} {t : Time}
      (mem : i ∈ rowsOf OrganizationInvitation c) (opened : Opened env token i) :
      OrgEffect env h ids c (.organization (.declineInvitation token))
        [.store (toRow { i with status := .declined, declinedAt := some t })]
  | expire {r : BackendRequest} {token} {i : OrganizationInvitation}
      (presents : r.invitationToken = some token) (mem : i ∈ rowsOf OrganizationInvitation c)
      (opened : Opened env token i) :
      OrgEffect env h ids c r [.store (toRow { i with status := .expired })]

variable {env : Env} {h h' : Told} {ids ids' : List ℕ} {l l' : OpenTx} {c c' : Database}
  {r : BackendRequest} {ws : List (Write Row Key)}

/-- What a session writes that knows more, over rows that are the same at the keys it writes. -/
theorem OrgEffect.mono (e : OrgEffect env h ids c r ws) (g : ToldMore h h')
    (hids : ∀ n ∈ ids, n ∈ ids') (hsame : c.SameAt (ws.map Write.key) c') :
    OrgEffect env h' ids' c' r ws := by
  have hstay : ∀ {T : Type} [Entity T] {t : T}, keyOf t ∈ ws.map Write.key → t ∈ rowsOf T c →
      t ∈ rowsOf T c' := by
    intro T _ t hk ht
    rw [mem_rowsOf] at ht ⊢
    exact (hsame _ (by rwa [key_toRow])).mpr ht
  cases e with
  | quiet hr => exact .quiet hr
  | create signedIn fresh memberFresh active creator organization owner role =>
    exact .create (signedIn.mono g) (hids _ fresh) (hids _ memberFresh) active creator organization
      owner role
  | update mem same creator deleted =>
    refine .update (hstay ?_ mem) same creator deleted
    exact List.mem_singleton.mpr (by rw [Write.key, key_toRow]; exact congrArg (Key.mk _) same.symm)
  | delete acts mem hid =>
    exact .delete (acts.mono g) (hstay List.mem_cons_self mem) hid
  | addMember acts assign fresh organization hrole =>
    exact .addMember (acts.mono g) assign (hids _ fresh) organization hrole
  | updateMember acts saw manage final mem hid =>
    exact .updateMember (acts.mono g) (saw.mono g) manage (fun h₁ h₂ => (final h₁ h₂).mono g)
      (hstay List.mem_cons_self mem) hid
  | removeMember acts saw manage final mem hid =>
    exact .removeMember (acts.mono g) (saw.mono g) manage (fun h₁ => (final h₁).mono g)
      (hstay List.mem_cons_self mem) hid
  | removeMissing => exact .removeMissing
  | createInvitation acts assign fresh organization hrole asked missed =>
    exact .createInvitation (acts.mono g) assign (hids _ fresh) organization hrole (g.mem asked)
      (missed.mono g)
  | resend acts saw mem hid =>
    exact .resend (acts.mono g) (saw.mono g) (hstay List.mem_cons_self mem) hid
  | revoke acts saw mem hid =>
    exact .revoke (acts.mono g) (saw.mono g) (hstay List.mem_cons_self mem) hid
  | accept signedIn mem opened asked unexpired email missed fresh organization who hrole =>
    exact .accept (signedIn.mono g) (hstay (List.mem_cons_of_mem _ List.mem_cons_self) mem) opened
      (g.mem asked) unexpired email (missed.mono g) (hids _ fresh) organization who hrole
  | decline mem opened => exact .decline (hstay List.mem_cons_self mem) opened
  | expire presents mem opened => exact .expire presents (hstay List.mem_cons_self mem) opened

/-- A row that a request stores is new, or it replaces the row with its key; a membership keeps its
organization and its user. -/
def Admits (ids : List ℕ) (c : Database) (r : Row) : Prop :=
  r.id ∈ ids ∨ ∃ s ∈ c.rows, key s = key r ∧ ∀ m m' : OrganizationMember, s = toRow m →
    r = toRow m' → m'.organizationId = m.organizationId ∧ m'.userId = m.userId

theorem admits_of_current {T : Type} [Entity T] {t t' : T} (ht : t ∈ rowsOf T c)
    (hid : Entity.id t' = Entity.id t) (hm : ∀ m m' : OrganizationMember, toRow t = toRow m →
      toRow t' = toRow m' → m'.organizationId = m.organizationId ∧ m'.userId = m.userId) :
    Admits ids c (toRow t') :=
  .inr ⟨toRow t, mem_rowsOf.mp ht, Entity.key_toRow_eq hid.symm, hm⟩

theorem OrgEffect.admits (e : OrgEffect env h ids c r ws) {row : Row} (hw : .store row ∈ ws) :
    Admits ids c row := by
  cases e with
  | quiet | removeMissing => cases hw
  | create signedIn fresh memberFresh =>
    rcases List.mem_cons.mp hw with hw | hw
    · cases hw; exact .inl fresh
    · cases List.mem_singleton.mp hw; exact .inl memberFresh
  | update mem same =>
    cases List.mem_singleton.mp hw
    exact admits_of_current mem same fun m m' hm => nomatch hm
  | delete acts mem =>
    cases List.mem_singleton.mp hw
    exact admits_of_current mem rfl fun m m' hm => nomatch hm
  | addMember acts assign fresh => cases List.mem_singleton.mp hw; exact .inl fresh
  | updateMember acts saw manage final mem =>
    cases List.mem_singleton.mp hw
    refine admits_of_current mem rfl fun m m' hm hm' => ?_
    cases Entity.toRow_injective hm
    cases Entity.toRow_injective hm'
    exact ⟨rfl, rfl⟩
  | removeMember => cases List.mem_singleton.mp hw
  | createInvitation acts assign fresh => cases List.mem_singleton.mp hw; exact .inl fresh
  | resend acts saw mem =>
    cases List.mem_singleton.mp hw
    exact admits_of_current mem rfl fun m m' hm => nomatch hm
  | revoke acts saw mem =>
    cases List.mem_singleton.mp hw
    exact admits_of_current mem rfl fun m m' hm => nomatch hm
  | accept signedIn mem opened asked unexpired email missed fresh =>
    rcases List.mem_cons.mp hw with hw | hw
    · cases hw; exact .inl fresh
    · cases List.mem_singleton.mp hw
      exact admits_of_current mem rfl fun m m' hm => nomatch hm
  | decline mem | expire presents mem =>
    cases List.mem_singleton.mp hw
    exact admits_of_current mem rfl fun m m' hm => nomatch hm

/-! ## Sessions -/

/-- The session has written an effect of the request `r`, and has locked what it wrote. -/
structure Owing (env : Env) (r : BackendRequest) (h : Told) (l : OpenTx) (c : Database) : Prop where
  uncommitted : .commit ∉ h
  effect : OrgEffect env h l.ids c r (logOn orgTables l)
  locked : ∀ w ∈ logOn orgTables l, w.key ∈ l.locks

/-- **Statements on other tables** leave what a session has written of organizations. -/
theorem Owing.extends (o : Owing env r h l c) (x : Extends orgDiscipline orgTables h l c h' l' c') :
    Owing env r h' l' c' := by
  refine ⟨x.told.no_commit o.uncommitted, ?_, fun w hw => x.locks _ (o.locked w (x.log ▸ hw))⟩
  rw [x.log]
  refine o.effect.mono x.told x.ids (x.env.same.mono fun k hk => ?_)
  obtain ⟨w, hw, rfl⟩ := List.mem_map.mp hk
  exact o.locked w hw

/-- The rows of organizations that a session leaves: those it stores, and those it does not write. -/
theorem mem_view_orgTables {row : Row} (hrow : orgTables row.table = true)
    (hm : row ∈ (l.view c).rows) : .store row ∈ logOn orgTables l ∨ row ∈ c.rows :=
  (Table.mem_apply _ ((mem_apply_filter hrow l.log Iff.rfl).mp hm)).imp_right And.left

/-- **A commit of an effect** keeps what other sessions assume. -/
theorem commitOk_of_owing (o : Owing env r h l c) : orgDiscipline.CommitOk l c := by
  refine ⟨trivial, fun t ht hnew m hm m' hm' hid => ?_, fun row hrow n hn => ?_, fun _ _ => trivial⟩
  · rcases mem_view_orgTables rfl (mem_rowsOf.mp hm') with hs | hs
    · rcases o.effect.admits hs with hs | ⟨s, hs, hk, hsame⟩
      · refine absurd ?_ (hnew _ hs (toRow m) (mem_rowsOf.mp hm))
        exact mem_orgNames.mpr ⟨rfl, hid.symm⟩
      · obtain ⟨htable, hsid⟩ := Key.mk.inj hk
        cases s with
        | organizationMember m₀ =>
          obtain ⟨h₁, h₂⟩ := ht m hm m₀ (mem_rowsOf.mpr hs) (hid.trans hsid.symm)
          obtain ⟨h₃, h₄⟩ := hsame m₀ m' rfl rfl
          exact ⟨h₃.trans h₁, h₄.trans h₂⟩
        | _ => cases htable
    · exact ht m hm m' (mem_rowsOf.mpr hs) hid
  · obtain ⟨hT, rfl⟩ := mem_orgNames.mp hn
    rcases mem_view_orgTables hT hrow with hs | hs
    · rcases o.effect.admits hs with hs | ⟨s, hs, hk, -⟩
      · exact .inl hs
      · obtain ⟨htable, hsid⟩ := Key.mk.inj hk
        exact .inr ⟨s, hs, mem_orgNames.mpr ⟨htable ▸ hT, hsid.symm⟩⟩
    · exact .inr ⟨row, hs, hn⟩

end DevOps
