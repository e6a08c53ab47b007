import DevOpsAssistant.Organizations.Revocation
import DevOpsAssistant.Organizations.Tenants

/-!
# The members of a deleted organization

Every operation on members reads the organization first, and finds it only while it is not deleted. The
one that accepts an invitation reads the invitation only.

* `Deleted`: the organization is deleted.
* `AcceptsInto`: the request accepts an open invitation to the organization.
* **`members_frozen`**: without such requests, its members stay as they are.
* **`accept_into_deleted`**: a run with one.
-/

namespace DevOps

open Txn Discipline

/-- The organization `o` is deleted. -/
def Deleted (c : Database) (o : UUID) : Prop :=
  ∃ org ∈ rowsOf Organization c, org.id = o ∧ org.deletedAt.isSome = true

/-- The request accepts an invitation to `o`, which is open and has not expired, for the user it was sent
to, who is no member of `o`. -/
inductive AcceptsInto (env : Env) (s : State) (o : UUID) : BackendRequest → Prop where
  | intro {access token} {user : User} {i : OrganizationInvitation} (signs : Signs env s access user)
      (mem : i ∈ rowsOf OrganizationInvitation s.committed) (opened : Opened env token i)
      (organization : i.organizationId = o) (unexpired : s.world.time < i.expiresAt)
      (email : env.lower user.email = env.lower i.email)
      (missed : ∀ m ∈ rowsOf OrganizationMember s.committed, memberOf o user.id m = false) :
      AcceptsInto env s o (.organization (.acceptInvitation access token))

/-! ## Steps -/

section Steps

variable {env : Env} {s s' : State} {r : BackendRequest} {h : Told} {ids : List ℕ} {o : UUID}

/-- No one acts on a deleted organization. -/
theorem StepOf.not_acts (x : StepOf env r s s' h ids) (hd : Deleted s.committed o) {access : RawToken}
    {permission : Permission} {user : User} {actor : OrganizationMember} :
    ¬ Acts env h access o permission user actor := by
  intro a
  obtain ⟨org, hid, hdel⟩ := hd
  obtain ⟨org', hsaw⟩ := a.active
  obtain ⟨hmem, hactive⟩ := x.saw hsaw
  rw [activeOrganization, Bool.and_eq_true, decide_eq_true_eq, Option.isNone_iff_eq_none] at hactive
  obtain rfl : org' = org := entity_ext hmem hid (hactive.1.trans hdel.1.symm)
  rw [hactive.2] at hdel
  cases hdel.2

/-- The session has read the membership that it changes in the organization it acts on. -/
theorem StepOf.target (x : StepOf env r s s' h ids) {o' u : UUID} {target row : OrganizationMember}
    (saw : Saw (memberOf o' u) target h) (mem : row ∈ rowsOf OrganizationMember s.committed)
    (hid : row.id = target.id) : row.organizationId = o' := by
  obtain ⟨htarget, hof⟩ := x.saw saw
  obtain rfl : row = target := entity_ext mem htarget hid
  exact (memberOf_eq.mp hof).1

theorem StepOf.acceptsInto (x : StepOf env r s s' h ids) {access token : RawToken} {user : User}
    {i : OrganizationInvitation}
    (a : InvitationAccepted env h s.committed access token user i) :
    AcceptsInto env s i.organizationId (.organization (.acceptInvitation access token)) := by
  obtain ⟨t, ht, hlt⟩ := a.unexpired
  exact .intro (x.signs a.signedIn) a.mem a.opened rfl (Nat.lt_of_le_of_lt (x.asked t ht).1 hlt) a.email
    (x.missed a.missed)

/-- **A request** that does not accept an invitation to a deleted organization leaves its members as they
are. -/
theorem StepOf.frozen (x : StepOf env r s s' h ids) (hd : Deleted s.committed o)
    (hr : ¬ AcceptsInto env s o r) {m : OrganizationMember} (hm : m.organizationId = o) :
    m ∈ rowsOf OrganizationMember s'.committed ↔ m ∈ rowsOf OrganizationMember s.committed := by
  cases x.members with
  | same rows => exact rows m
  | @joined member fresh joins rows =>
    have hnew : member ∉ rowsOf OrganizationMember s.committed := fun hmem =>
      not_fresh_of_committed x.unused rfl hmem fresh
    have hother : member.organizationId ≠ o := by
      rintro rfl
      cases joins with
      | created signedIn freshOrg row creator organization who role =>
        obtain ⟨org, horg, hid, -⟩ := hd
        exact not_fresh_of_committed x.unused rfl horg
          (show org.id ∈ ids from (hid.trans organization) ▸ freshOrg)
      | added acts assign => exact x.not_acts hd acts
      | accepted signedIn mem opened email organization who role =>
        have hin : member ∈ rowsOf OrganizationMember s'.committed := (rows member).mpr (.inl rfl)
        rcases x.accepted _ _ rfl member hin with hold | ⟨user, i, a, ho⟩
        · exact hnew hold
        · exact hr (ho ▸ x.acceptsInto a)
    rw [rows m]
    constructor
    · rintro (rfl | ⟨hmem, -⟩)
      · exact absurd hm hother
      · exact hmem
    · intro hmem
      refine .inr ⟨hmem, fun hid => hnew ?_⟩
      exact absurd (show m.id ∈ ids from hid ▸ fresh) (not_fresh_of_committed x.unused rfl hmem)
  | @reassigned access o' u role user actor target row t request acts saw manage final mem hid rows =>
    have hrow : row.organizationId = o' := x.target saw mem hid
    have hne : o' ≠ o := fun heq => x.not_acts hd (heq ▸ acts)
    rw [rows m]
    constructor
    · rintro (rfl | ⟨hmem, -⟩)
      · exact absurd (hrow.symm.trans hm) hne
      · exact hmem
    · intro hmem
      refine .inr ⟨hmem, fun heq => hne ?_⟩
      rw [← hrow, ← entity_ext hmem mem heq, hm]
  | @dismissed access o' u user actor target row request acts saw manage final mem hid rows =>
    have hrow : row.organizationId = o' := x.target saw mem hid
    have hne : o' ≠ o := fun heq => x.not_acts hd (heq ▸ acts)
    rw [rows m]
    refine ⟨fun hmem => hmem.1, fun hmem => ⟨hmem, fun heq => hne ?_⟩⟩
    rw [← hrow, ← entity_ext hmem mem heq, hm]

end Steps

/-! ## Runs -/

section Runs

variable {env : Env} {s₀ : State} {o : UUID}

/-- The request accepts no invitation to `o`. -/
def SparesDeleted (o : UUID) (s : State) (r : TenantRequest env) : Prop :=
  ∀ r', r = .backend r' → ¬ AcceptsInto env s o r'

/-- `G` holds of every request of the run `rs`, in the state in which it is served. -/
def TenantAlong (G : State → TenantRequest env → Prop) (s : State) (rs : List (TenantRequest env)) :
    Prop :=
  ∀ before r after, rs = before ++ r :: after → G (tenantServed env s before) r

/-- A deleted organization and its members, after one request. -/
theorem frozen_tenantServedOne {s : State} (b : Between orgDiscipline s) (hd : Deleted s.committed o)
    (r : TenantRequest env) (hr : SparesDeleted o s r) :
    Deleted (tenantServedOne s r).committed o ∧ ∀ m : OrganizationMember, m.organizationId = o →
      (m ∈ rowsOf OrganizationMember (tenantServedOne s r).committed ↔
        m ∈ rowsOf OrganizationMember s.committed) := by
  by_cases hback : ∃ r', r = .backend r'
  · obtain ⟨r', rfl⟩ := hback
    obtain ⟨-, h, ids, x⟩ := exists_stepOf env b r'
    rw [serve_backend]
    refine ⟨?_, fun m hm => x.frozen hd (hr r' rfl) hm⟩
    obtain ⟨org, horg, hid, hdel⟩ := hd
    obtain ⟨org', horg', hid', hdel'⟩ := x.deleted org horg hdel
    exact ⟨org', horg', hid'.trans hid, hdel'⟩
  · have hsame := serve_beside s r fun r' heq => hback ⟨r', heq⟩
    obtain ⟨org, horg, hid, hdel⟩ := hd
    refine ⟨⟨org, ?_, hid, hdel⟩, fun m _ => ?_⟩
    · exact mem_rowsOf.mpr ((hsame (toRow org) rfl).mpr (mem_rowsOf.mp horg))
    · rw [mem_rowsOf, mem_rowsOf]
      exact hsame (toRow m) rfl

theorem between_tenantServed (h₀ : s₀.committed = .empty) (rs : List (TenantRequest env)) :
    Between orgDiscipline (tenantServed env s₀ rs) :=
  Store.serveAll_induction respond TenantRequest.serve (P := fun s => Between orgDiscipline s)
    (fun _ r b => between_tenantServedOne b r) (between_of_empty h₀) rs

/-- **A deleted organization keeps its members as they are**, in every serial run of requests, unless a
request accepts an invitation to it. -/
theorem members_frozen (env : Env) (s₀ : State) (h₀ : s₀.committed = .empty)
    (before after : List (TenantRequest env)) (o : UUID)
    (hd : Deleted (tenantServed env s₀ before).committed o)
    (hg : TenantAlong (SparesDeleted o) (tenantServed env s₀ before) after) :
    ∀ m : OrganizationMember, m.organizationId = o →
      (m ∈ rowsOf OrganizationMember (tenantServed env s₀ (before ++ after)).committed ↔
        m ∈ rowsOf OrganizationMember (tenantServed env s₀ before).committed) := by
  suffices hall : ∀ rs, TenantAlong (SparesDeleted o) (tenantServed env s₀ before) rs →
      Deleted (tenantServed env s₀ (before ++ rs)).committed o ∧
        ∀ m : OrganizationMember, m.organizationId = o →
          (m ∈ rowsOf OrganizationMember (tenantServed env s₀ (before ++ rs)).committed ↔
            m ∈ rowsOf OrganizationMember (tenantServed env s₀ before).committed) from
    (hall after hg).2
  intro rs
  induction rs using List.reverseRecOn with
  | nil =>
    intro _
    rw [List.append_nil]
    exact ⟨hd, fun _ _ => Iff.rfl⟩
  | append_singleton rs r ih =>
    intro hg
    have hstep : tenantServed env s₀ (before ++ (rs ++ [r])) =
        tenantServedOne (tenantServed env s₀ (before ++ rs)) r := by
      rw [← List.append_assoc]
      exact Store.serveAll_append respond TenantRequest.serve s₀ (before ++ rs) [r]
    have hstate : tenantServed env s₀ (before ++ rs) =
        tenantServed env (tenantServed env s₀ before) rs :=
      Store.serveAll_append respond TenantRequest.serve s₀ before rs
    obtain ⟨hdel, hrows⟩ := ih fun pre q post hrs => hg pre q (post ++ [r]) (by simp [hrs])
    have hr : SparesDeleted o (tenantServed env s₀ (before ++ rs)) r := by
      rw [hstate]
      exact hg rs r [] rfl
    obtain ⟨hdel', hrows'⟩ := frozen_tenantServedOne (between_tenantServed h₀ _) hdel r hr
    rw [hstep]
    exact ⟨hdel', fun m hm => (hrows' m hm).trans (hrows m hm)⟩

end Runs

/-! ## Two runs -/

/-- The user 1 invites the user 3 to the organization 4, and deletes it. -/
def invitedThenDeleted : List (TenantRequest .trial) :=
  (secondInvited.map fun r => .backend r.1) ++
    [.backend (.organization (.delete (trialAccessOf 1) 4))]

/-- The user 3 accepts. -/
def acceptsAfterwards : List (TenantRequest .trial) :=
  [.backend (.organization (.acceptInvitation (trialAccessOf 3) (.secure 7)))]

theorem deleted_invitedThenDeleted :
    Deleted (tenantServed .trial State.trial invitedThenDeleted).committed 4 := by
  unfold Deleted
  decide

/-- The invitation to the deleted organization is accepted. -/
theorem accept_into_deleted : ¬ ∀ (env : Env) (s₀ : State) (before after : List (TenantRequest env))
    (o : UUID), s₀.committed = .empty → Deleted (tenantServed env s₀ before).committed o →
      ∀ m : OrganizationMember, m.organizationId = o →
        (m ∈ rowsOf OrganizationMember (tenantServed env s₀ (before ++ after)).committed ↔
          m ∈ rowsOf OrganizationMember (tenantServed env s₀ before).committed) := by
  intro hall
  have hjoined : ∃ m ∈ rowsOf OrganizationMember (tenantServed .trial State.trial (invitedThenDeleted ++
      acceptsAfterwards)).committed,
      m.organizationId = 4 ∧ ∀ m' ∈ rowsOf OrganizationMember
        (tenantServed .trial State.trial invitedThenDeleted).committed, m'.id ≠ m.id := by
    decide
  obtain ⟨m, hm, ho, hnew⟩ := hjoined
  have hold := hall .trial State.trial invitedThenDeleted acceptsAfterwards 4 rfl
    deleted_invitedThenDeleted m ho
  exact hnew m (hold.mp hm) rfl

/-- The owner adds a member to no avail, and stays one. -/
theorem members_frozen_trial : ∃ m : OrganizationMember, m.organizationId = 4 ∧
    m ∈ rowsOf OrganizationMember (tenantServed .trial State.trial (invitedThenDeleted ++
      [.backend (.organization (.addMember (trialAccessOf 1) 4 "b" .member)),
        .task (.list (trialAccessOf 1) (some 4) none none 10 0)])).committed := by
  obtain ⟨m, hm, ho⟩ : ∃ m ∈ rowsOf OrganizationMember
      (tenantServed .trial State.trial invitedThenDeleted).committed, m.organizationId = 4 := by
    decide
  refine ⟨m, ho, (members_frozen .trial State.trial rfl invitedThenDeleted _ 4
    deleted_invitedThenDeleted ?_ m ho).mpr hm⟩
  intro before r after hrs r' hr haccept
  have hmem : r ∈ before ++ r :: after := List.mem_append_right _ List.mem_cons_self
  rw [← hrs, List.mem_cons, List.mem_singleton] at hmem
  subst hr
  cases haccept
  rcases hmem with heq | heq <;> cases heq

end DevOps
