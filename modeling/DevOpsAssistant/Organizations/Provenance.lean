import DevOpsAssistant.Organizations.Owners
import DevOpsAssistant.Organizations.Serial

/-!
# Where owners come from

Over serial runs: who is an owner of an organization created it, or was made one by an owner; and only
owners change or remove owners.

* `Grants`, `Invites`, `Accepts`: the requests that make owners.
* `Invited`, `Authorised`: an invitation or a membership that goes back to such requests.
* `Provenance`: the invariant of serial runs.
* **`owners_authorised`**: every membership of an owner, and every change to one, in every serial run.
-/

namespace DevOps

open Txn Discipline

/-- The request of a user who is an owner of `o`. -/
def ByOwner (env : Env) (s : State) (access : RawToken) (o : UUID) : Prop :=
  ∃ user, Signs env s access user ∧ IsOwner s.committed o user.id

/-- The request, served from `s` to `s'`, made the membership `m` one of an owner: its user created the
organization then, or was an owner of it. -/
inductive Grants (env : Env) (s s' : State) (m : OrganizationMember) : BackendRequest → Prop where
  | created {access name slug} {user : User} {org : Organization} (signs : Signs env s access user)
      (new : ∀ org₀ ∈ rowsOf Organization s.committed, org₀.id ≠ org.id)
      (mem : org ∈ rowsOf Organization s'.committed) (creator : org.createdBy = user.id)
      (organization : m.organizationId = org.id) (who : m.userId = user.id) :
      Grants env s s' m (.organization (.create access name slug))
  | added {access o email} (byOwner : ByOwner env s access o) (organization : m.organizationId = o)
      (new : ∀ m₀ ∈ rowsOf OrganizationMember s.committed, m₀.id ≠ m.id) :
      Grants env s s' m (.organization (.addMember access o email .owner))
  | promoted {access o u} (byOwner : ByOwner env s access o) (organization : m.organizationId = o)
      (who : m.userId = u) : Grants env s s' m (.organization (.updateMember access o u .owner))

/-- The request, served from `s` to `s'`, created the invitation `i`, and its user was an owner. -/
inductive Invites (env : Env) (s s' : State) (i : OrganizationInvitation) : BackendRequest → Prop where
  | intro {access o email} (byOwner : ByOwner env s access o) (organization : i.organizationId = o)
      (new : ∀ j ∈ rowsOf OrganizationInvitation s.committed, j.id ≠ i.id)
      (mem : ∃ j ∈ rowsOf OrganizationInvitation s'.committed, j.id = i.id ∧ j.role = .owner) :
      Invites env s s' i (.organization (.createInvitation access o email .owner))

/-- The request accepted the invitation `i` and so created the membership `m`. -/
inductive Accepts (env : Env) (s : State) (i : OrganizationInvitation) (m : OrganizationMember) :
    BackendRequest → Prop where
  | intro {access token} {user : User} (signs : Signs env s access user)
      (mem : i ∈ rowsOf OrganizationInvitation s.committed) (opened : Opened env token i)
      (organization : m.organizationId = i.organizationId) (who : m.userId = user.id)
      (new : ∀ m₀ ∈ rowsOf OrganizationMember s.committed, m₀.id ≠ m.id) :
      Accepts env s i m (.organization (.acceptInvitation access token))

/-- An owner created the invitation `i` in the run `rs`. -/
def Invited (env : Env) (s : State) (rs : List BackendRequest) (i : OrganizationInvitation) : Prop :=
  ∃ before r after, rs = before ++ r :: after ∧
    Invites env (served env s before) (served env s (before ++ [r])) i r

/-- The membership `id` is one of an owner. -/
def Owns (c : Database) (id : UUID) : Prop :=
  ∃ m ∈ rowsOf OrganizationMember c, m.id = id ∧ m.role = .owner

/-- The membership `m` was made one of an owner in the run `rs`, with the authority of an owner or by
the creation of its organization, and has been one since. -/
def Authorised (env : Env) (s : State) (rs : List BackendRequest) (m : OrganizationMember) : Prop :=
  ∃ before r after, rs = before ++ r :: after ∧
    (Grants env (served env s before) (served env s (before ++ [r])) m r ∨
      ∃ i, Accepts env (served env s before) i m r ∧ Invited env s before i) ∧
    ∀ since, since <+: after → Owns (served env s (before ++ r :: since)).committed m.id

/-- The user of the request is an owner of the organization `o`. -/
def PerformedByOwner (env : Env) (s : State) (r : BackendRequest) (o : UUID) : Prop :=
  ∃ access u, (r = .organization (.removeMember access o u) ∨
    ∃ role, r = .organization (.updateMember access o u role)) ∧ ByOwner env s access o

section Steps

variable {env : Env} {s s' s₀ : State} {r : BackendRequest} {rs : List BackendRequest} {h : Told}
  {ids : List ℕ}

theorem Invited.append {i : OrganizationInvitation} (hi : Invited env s₀ rs i) (r : BackendRequest) :
    Invited env s₀ (rs ++ [r]) i := by
  obtain ⟨before, q, after, rfl, hq⟩ := hi
  exact ⟨before, q, after ++ [r], by simp, hq⟩

theorem Authorised.append {m : OrganizationMember} (hm : Authorised env s₀ rs m)
    (ho : Owns (served env s₀ (rs ++ [r])).committed m.id) : Authorised env s₀ (rs ++ [r]) m := by
  obtain ⟨before, q, after, rfl, hq, hsince⟩ := hm
  refine ⟨before, q, after ++ [r], by simp, hq, fun since hs => ?_⟩
  rcases List.prefix_concat_iff.mp hs with rfl | hs
  · simpa using ho
  · exact hsince since hs

theorem Invited.congr {i j : OrganizationInvitation} (hi : Invited env s₀ rs i) (hid : j.id = i.id)
    (ho : j.organizationId = i.organizationId) : Invited env s₀ rs j := by
  obtain ⟨before, q, after, rfl, hq⟩ := hi
  refine ⟨before, q, after, rfl, ?_⟩
  cases hq with
  | intro byOwner organization new mem =>
    exact .intro byOwner (ho.trans organization) (hid ▸ new) (hid ▸ mem)

theorem Authorised.congr {m m' : OrganizationMember} (hm : Authorised env s₀ rs m)
    (hid : m'.id = m.id) (ho : m'.organizationId = m.organizationId) (hu : m'.userId = m.userId) :
    Authorised env s₀ rs m' := by
  obtain ⟨before, q, after, rfl, hq, hsince⟩ := hm
  refine ⟨before, q, after, rfl, hq.imp (fun hg => ?_) fun ⟨i, ha, hi⟩ => ⟨i, ?_, hi⟩, hid ▸ hsince⟩
  · cases hg with
    | created signs new mem creator organization who =>
      exact .created signs new mem creator (ho.trans organization) (hu.trans who)
    | added byOwner organization new =>
      exact .added byOwner (ho.trans organization) (hid ▸ new)
    | promoted byOwner organization who =>
      exact .promoted byOwner (ho.trans organization) (hu.trans who)
  · cases ha with
    | intro signs mem opened organization who new =>
      exact .intro signs mem opened (ho.trans organization) (hu.trans who) (hid ▸ new)

/-- The row a session changes is the one it has read. -/
theorem StepOf.target_eq (x : StepOf env r s s' h ids) {o u : UUID}
    {target row : OrganizationMember} (hs : Saw (memberOf o u) target h)
    (hrow : row ∈ rowsOf OrganizationMember s.committed) (hid : row.id = target.id) :
    target = row ∧ row.organizationId = o ∧ row.userId = u := by
  obtain ⟨ht, hp⟩ := x.saw hs
  obtain rfl : target = row := entity_ext ht hrow hid.symm
  exact ⟨rfl, memberOf_eq.mp hp⟩

theorem StepOf.byOwner (x : StepOf env r s s' h ids) {access : RawToken} {o : UUID}
    {permission : Permission} {user : User} {actor : OrganizationMember}
    (a : Acts env h access o permission user actor) (hr : actor.role = .owner) :
    ByOwner env s access o :=
  ⟨user, x.signs a.signedIn, x.isOwner a hr⟩

theorem StepOf.new (x : StepOf env r s s' h ids) {T : Type} [Entity T]
    (hT : orgTables (Entity.table T) = true) {n : ℕ} (hn : n ∈ ids) :
    ∀ t ∈ rowsOf T s.committed, Entity.id t ≠ n := by
  rintro t ht rfl
  exact not_fresh_of_committed x.unused hT ht hn

/-- **Owners after a request** were owners before it, or it has made them owners. -/
theorem StepOf.owner_came (x : StepOf env r s s' h ids) {m : OrganizationMember}
    (hm : m ∈ rowsOf OrganizationMember s'.committed) (hrole : m.role = .owner) :
    (∃ m₀ ∈ rowsOf OrganizationMember s.committed, m₀.role = .owner ∧ m₀.id = m.id ∧
        m₀.organizationId = m.organizationId ∧ m₀.userId = m.userId) ∨
      Grants env s s' m r ∨ ∃ i, i.role = .owner ∧ Accepts env s i m r := by
  have hsame : m ∈ rowsOf OrganizationMember s.committed → _ := fun h₀ =>
    (⟨m, h₀, hrole, rfl, rfl, rfl⟩ : ∃ m₀ ∈ rowsOf OrganizationMember s.committed, m₀.role = .owner ∧
      m₀.id = m.id ∧ m₀.organizationId = m.organizationId ∧ m₀.userId = m.userId)
  cases x.members with
  | same rows => exact .inl (hsame ((rows m).mp hm))
  | joined fresh joins rows =>
    rcases (rows m).mp hm with rfl | ⟨h₀, -⟩
    · refine .inr ?_
      cases joins with
      | created signedIn orgFresh row creator organization who role =>
        exact .inl (.created (x.signs signedIn) (x.new rfl orgFresh) row creator organization who)
      | added acts assign =>
        rw [hrole]
        exact .inl (.added (x.byOwner acts (assign hrole)) rfl (x.new rfl fresh))
      | accepted signedIn mem opened email organization who role =>
        exact .inr ⟨_, role.symm.trans hrole,
          .intro (x.signs signedIn) mem opened organization who (x.new rfl fresh)⟩
    · exact .inl (hsame h₀)
  | @reassigned _ _ _ role _ actor target row t request acts saw manage final mem hid rows =>
    rcases (rows m).mp hm with rfl | ⟨h₀, -⟩
    · obtain ⟨rfl, ho, hu⟩ := x.target_eq saw mem hid
      by_cases hold : target.role = .owner
      · exact .inl ⟨target, mem, hold, rfl, rfl, rfl⟩
      -- the row has become one of an owner, so this is the role that was asked for
      · have hnew : role = .owner := by
          change flushed target.role role target.role = .owner at hrole
          unfold flushed at hrole
          split at hrole
          · exact absurd hrole hold
          · exact hrole
        have hactor : actor.role = .owner := manage.resolve_right fun hn => hn.2 hnew
        subst hnew
        exact .inr (.inl (request ▸ .promoted (x.byOwner acts hactor) ho hu))
    · exact .inl (hsame h₀)
  | dismissed request acts saw manage final mem hid rows => exact .inl (hsame ((rows m).mp hm).1)

/-- **Owners before a request** stay as they are, unless it is the request of an owner. -/
theorem StepOf.owner_kept (x : StepOf env r s s' h ids) {m : OrganizationMember}
    (hm : m ∈ rowsOf OrganizationMember s.committed) (hrole : m.role = .owner) :
    m ∈ rowsOf OrganizationMember s'.committed ∨ PerformedByOwner env s r m.organizationId := by
  cases x.members with
  | same rows => exact .inl ((rows m).mpr hm)
  | joined fresh joins rows =>
    exact .inl ((rows m).mpr (.inr ⟨hm, x.new rfl fresh m hm⟩))
  | @reassigned access o u role _ actor target row _ request acts saw manage final mem hid rows =>
    obtain ⟨rfl, ho, -⟩ := x.target_eq saw mem hid
    by_cases heq : m.id = target.id
    · obtain rfl := entity_ext hm mem heq
      have hactor : actor.role = .owner := manage.resolve_right fun hn => hn.1 hrole
      subst ho
      exact .inr ⟨access, u, .inr ⟨role, request⟩, x.byOwner acts hactor⟩
    · exact .inl ((rows m).mpr (.inr ⟨hm, heq⟩))
  | @dismissed access o u _ actor target row request acts saw manage final mem hid rows =>
    obtain ⟨rfl, ho, -⟩ := x.target_eq saw mem hid
    by_cases heq : m.id = target.id
    · obtain rfl := entity_ext hm mem heq
      have hactor : actor.role = .owner := manage.resolve_right fun hn => hn hrole
      subst ho
      exact .inr ⟨access, u, .inl request, x.byOwner acts hactor⟩
    · exact .inl ((rows m).mpr ⟨hm, heq⟩)

/-- **Invitations of owners after a request** were there before it, or an owner has created them. -/
theorem StepOf.invitation_came (x : StepOf env r s s' h ids) {i : OrganizationInvitation}
    (hi : i ∈ rowsOf OrganizationInvitation s'.committed) (hrole : i.role = .owner) :
    (∃ i₀ ∈ rowsOf OrganizationInvitation s.committed, i₀.role = .owner ∧ i₀.id = i.id ∧
        i₀.organizationId = i.organizationId) ∨ Invites env s s' i r := by
  cases x.invitations with
  | same rows => exact .inl ⟨i, (rows i).mp hi, hrole, rfl, rfl⟩
  | invited request acts assign fresh asked missed rows =>
    rcases (rows i).mp hi with rfl | ⟨h₀, -⟩
    · refine .inr ?_
      subst request
      rw [hrole]
      exact .intro (x.byOwner acts (assign hrole)) rfl (x.new rfl fresh) ⟨i, hi, rfl, hrole⟩
    · exact .inl ⟨i, h₀, hrole, rfl, rfl⟩
  | resent request saw mem rows =>
    rcases (rows i).mp hi with rfl | ⟨h₀, -⟩
    · exact .inl ⟨_, mem, hrole, rfl, rfl⟩
    · exact .inl ⟨i, h₀, hrole, rfl, rfl⟩
  | revoked request saw mem rows =>
    rcases (rows i).mp hi with rfl | ⟨h₀, -⟩
    · exact .inl ⟨_, mem, hrole, rfl, rfl⟩
    · exact .inl ⟨i, h₀, hrole, rfl, rfl⟩
  | answered presents mem opened closed rows =>
    rcases (rows i).mp hi with rfl | ⟨h₀, -⟩
    · exact .inl ⟨_, mem, hrole, rfl, rfl⟩
    · exact .inl ⟨i, h₀, hrole, rfl, rfl⟩

end Steps

/-! ## Runs -/

/-- Every owner, and every invitation of one, goes back to an owner or to the creation of the
organization. -/
structure Provenance (env : Env) (s₀ : State) (rs : List BackendRequest) (s : State) : Prop where
  owners : ∀ m ∈ rowsOf OrganizationMember s.committed, m.role = .owner → Authorised env s₀ rs m
  invitations : ∀ i ∈ rowsOf OrganizationInvitation s.committed, i.role = .owner →
    Invited env s₀ rs i

variable {env : Env} {s₀ : State}

theorem Provenance.step {rs : List BackendRequest} {r : BackendRequest} {h : Told} {ids : List ℕ}
    (p : Provenance env s₀ rs (served env s₀ rs))
    (x : StepOf env r (served env s₀ rs) (servedOne env (served env s₀ rs) r) h ids) :
    Provenance env s₀ (rs ++ [r]) (servedOne env (served env s₀ rs) r) := by
  rw [← served_append_singleton] at x ⊢
  refine ⟨fun m hm hrole => ?_, fun i hi hrole => ?_⟩
  · have hnow : ∀ since, since <+: [] → Owns (served env s₀ (rs ++ r :: since)).committed m.id :=
      fun since hs => List.prefix_nil.mp hs ▸ ⟨m, hm, rfl, hrole⟩
    rcases x.owner_came hm hrole with ⟨m₀, h₀, hr₀, hid, ho, hu⟩ | hg | ⟨i, hirole, ha⟩
    · exact ((p.owners m₀ h₀ hr₀).append ⟨m, hm, hid.symm, hrole⟩).congr hid.symm ho.symm hu.symm
    · exact ⟨rs, r, [], rfl, .inl hg, hnow⟩
    · refine ⟨rs, r, [], rfl, .inr ⟨i, ha, ?_⟩, hnow⟩
      cases ha with
      | intro signs mem => exact p.invitations i mem hirole
  · rcases x.invitation_came hi hrole with ⟨i₀, h₀, hr₀, hid, ho⟩ | hn
    · exact ((p.invitations i₀ h₀ hr₀).append r).congr hid.symm ho.symm
    · exact ⟨rs, r, [], rfl, hn⟩

/-- **Every owner** in every serial run of a new deployment created the organization, or was made an
owner by an owner; and a membership of an owner that a request changes or deletes is changed by an owner
of the organization. -/
theorem owners_authorised (h₀ : s₀.committed = .empty) (rs : List BackendRequest) :
    (∀ m ∈ rowsOf OrganizationMember (served env s₀ rs).committed, m.role = .owner →
      Authorised env s₀ rs m) ∧
    ∀ before r after, rs = before ++ r :: after →
      ∀ m ∈ rowsOf OrganizationMember (served env s₀ before).committed, m.role = .owner →
        m ∈ rowsOf OrganizationMember (served env s₀ (before ++ [r])).committed ∨
          PerformedByOwner env (served env s₀ before) r m.organizationId := by
  have hstart : Provenance env s₀ [] s₀ :=
    ⟨by rw [h₀]; exact fun _ hm => (nomatch hm), by rw [h₀]; exact fun _ hi => (nomatch hi)⟩
  have hall : ∀ rs, Between orgDiscipline (served env s₀ rs) ∧
      Provenance env s₀ rs (served env s₀ rs) :=
    served_induction h₀ hstart fun rs r h ids _ p x => p.step x
  refine ⟨(hall rs).2.owners, fun before r after _ m hm hrole => ?_⟩
  obtain ⟨-, h, ids, x⟩ := exists_stepOf env (hall before).1 r
  rw [served_append_singleton]
  exact x.owner_kept hm hrole

/-- Two accounts, an organization of the first, and the second one made an owner by it. -/
theorem owners_authorised_trial :
    ((rowsOf OrganizationMember (served .trial State.trial (twoOwners.map Prod.fst)).committed).map
      (·.role) = [.owner, .owner]) ∧
    ∀ m ∈ rowsOf OrganizationMember (served .trial State.trial (twoOwners.map Prod.fst)).committed,
      m.role = .owner → Authorised .trial State.trial (twoOwners.map Prod.fst) m :=
  ⟨by decide, (owners_authorised rfl _).1⟩

end DevOps
